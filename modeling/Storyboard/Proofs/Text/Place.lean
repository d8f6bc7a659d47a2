import Mathlib.Data.String.Basic
import Storyboard.Proofs.Text.Trimmed

/-!
# Places in a text

`Occupies` says which bytes of a text a part of it takes up. Such places can be composed, and they
begin and end between characters. A text is `Clean` if it lies in one line and has no white space at
its ends; what is left of a line when it is trimmed is clean.
-/

namespace Storyboard

namespace Text

/-- The text takes up the bytes of the source from `start` up to `stop`. -/
def Occupies (source text : List Char) (start stop : Nat) : Prop :=
  ∃ before after, source = before ++ text ++ after ∧ start = byteLength before ∧
    stop = byteLength (before ++ text)

structure Clean (text : List Char) : Prop where
  line : '\n' ∉ text
  first : ∃ c rest, text = c :: rest ∧ isBlank c = false
  last : ∃ rest c, text = rest ++ [c] ∧ isBlank c = false

theorem byteLength_eq_utf8Len (cs : List Char) : byteLength cs = String.utf8Len cs := by
  induction cs with
  | nil => rfl
  | cons c cs ih => rw [byteLength_cons, ih, String.utf8Len_cons, Nat.add_comm]

theorem byteLength_eq_utf8ByteSize (cs : List Char) :
    byteLength cs = (String.ofList cs).utf8ByteSize := by
  rw [byteLength_eq_utf8Len, String.utf8ByteSize_ofList]

theorem byteLength_pos {cs : List Char} (some : cs ≠ []) : 0 < byteLength cs := by
  obtain ⟨c, rest, rfl⟩ := List.exists_cons_of_ne_nil some
  have positive := c.utf8Size_pos
  rw [byteLength_cons]
  omega

namespace Occupies

variable {source middle text : List Char} {start stop : Nat}

theorem intro (before text after : List Char) :
    Occupies (before ++ text ++ after) text (byteLength before)
      (byteLength before + byteLength text) :=
  ⟨before, after, rfl, rfl, (byteLength_append before text).symm⟩

theorem length (h : Occupies source text start stop) : stop = start + byteLength text := by
  obtain ⟨before, after, rfl, rfl, rfl⟩ := h
  exact byteLength_append before text

theorem trans {a b : Nat} (outer : Occupies source middle start stop)
    (inner : Occupies middle text a b) : Occupies source text (start + a) (start + b) := by
  obtain ⟨before, after, rfl, rfl, rfl⟩ := outer
  obtain ⟨early, late, rfl, rfl, rfl⟩ := inner
  refine ⟨before ++ early, late ++ after, by simp, ?_, ?_⟩ <;>
    simp [byteLength_append]

theorem mem (h : Occupies source text start stop) {c : Char} (member : c ∈ text) : c ∈ source := by
  obtain ⟨before, after, rfl, _⟩ := h
  simp [member]

theorem lt (h : Occupies source text start stop) (some : text ≠ []) : start < stop := by
  have positive := byteLength_pos some
  have ends := h.length
  omega

/-- Such a place lies in the source and begins and ends between characters. -/
theorem valid {source : String} (h : Occupies source.toList text start stop) :
    stop ≤ source.utf8ByteSize ∧ String.Pos.Raw.IsValid source ⟨start⟩ ∧
      String.Pos.Raw.IsValid source ⟨stop⟩ := by
  obtain ⟨before, after, whole, rfl, rfl⟩ := h
  have same : source = String.ofList (before ++ text ++ after) := by
    rw [← whole, String.ofList_toList]
  refine ⟨?_, String.Pos.Raw.isValid_iff_exists_append.mpr ?_,
    String.Pos.Raw.isValid_iff_exists_append.mpr ?_⟩
  · rw [same, ← byteLength_eq_utf8ByteSize, byteLength_append _ after]
    exact Nat.le_add_right _ _
  · refine ⟨String.ofList before, String.ofList (text ++ after), ?_, ?_⟩
    · rw [same, List.append_assoc, String.ofList_append]
    · rw [byteLength_eq_utf8ByteSize]
      rfl
  · refine ⟨String.ofList (before ++ text), String.ofList after, ?_, ?_⟩
    · rw [same, String.ofList_append]
    · rw [byteLength_eq_utf8ByteSize]
      rfl

/-- What stands in the source between two places. -/
theorem extract {source : String} (h : Occupies source.toList text start stop) :
    (String.Pos.Raw.extract source ⟨start⟩ ⟨stop⟩).toList = text := by
  obtain ⟨before, after, whole, rfl, rfl⟩ := h
  have slice := String.extract_of_valid before text after
  rw [← whole, String.ofList_toList] at slice
  rw [byteLength_append, byteLength_eq_utf8Len, byteLength_eq_utf8Len, slice, String.toList_ofList]

end Occupies

/-! ### Trimmed texts -/

theorem occupies_trim (cs : List Char) : Occupies cs (trim cs) (byteLength (cs.takeWhile isBlank))
    (byteLength (cs.takeWhile isBlank) + byteLength (trim cs)) := by
  obtain ⟨tail, split⟩ := List.rdropWhile_prefix isBlank (l := trimStart cs)
  have whole : cs = cs.takeWhile isBlank ++ trim cs ++ tail := by
    rw [List.append_assoc, show trim cs ++ tail = trimStart cs from split]
    exact List.takeWhile_append_dropWhile.symm
  have placed := Occupies.intro (cs.takeWhile isBlank) (trim cs) tail
  rwa [← whole] at placed

theorem trim_clean {cs : List Char} (line : '\n' ∉ cs) (some : trim cs ≠ []) : Clean (trim cs) := by
  obtain ⟨-, first, last⟩ := trim_trimmed cs
  refine ⟨fun member => line ((trim_within cs).subset member), ?_, ?_⟩
  · obtain ⟨c, rest, same⟩ := List.exists_cons_of_ne_nil some
    exact ⟨c, rest, same, first c (by rw [same]; rfl)⟩
  · exact ⟨_, _, (List.dropLast_append_getLast some).symm,
      last _ (List.getLast?_eq_some_getLast some)⟩

end Text

end Storyboard
