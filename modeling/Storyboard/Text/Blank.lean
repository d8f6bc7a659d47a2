/-!
# White space

The white space characters of Unicode, and the trimming and splitting of text at them. Text is
a list of characters here; `byteLength` is its length in UTF-8.
-/

namespace Storyboard.Text

/-- Membership in the white space property of Unicode. -/
def isBlank (c : Char) : Bool :=
  let n := c.toNat
  (9 ≤ n && n ≤ 13) || n == 0x20 || n == 0x85 || n == 0xA0 || n == 0x1680 ||
    (0x2000 ≤ n && n ≤ 0x200A) || n == 0x2028 || n == 0x2029 || n == 0x202F || n == 0x205F ||
    n == 0x3000

/-- The length of a text in UTF-8 bytes. -/
def byteLength (cs : List Char) : Nat :=
  cs.foldr (fun c n => c.utf8Size + n) 0

theorem byteLength_cons (c : Char) (cs : List Char) :
    byteLength (c :: cs) = c.utf8Size + byteLength cs := rfl

theorem byteLength_append (as bs : List Char) :
    byteLength (as ++ bs) = byteLength as + byteLength bs := by
  induction as with
  | nil => simp [byteLength]
  | cons c as ih => rw [List.cons_append, byteLength_cons, byteLength_cons, ih, Nat.add_assoc]

/-- Drops characters that satisfy `p` from the end. -/
def dropEndWhile (p : Char → Bool) (cs : List Char) : List Char :=
  (cs.reverse.dropWhile p).reverse

def trimStart (cs : List Char) : List Char :=
  cs.dropWhile isBlank

def trimEnd (cs : List Char) : List Char :=
  dropEndWhile isBlank cs

def trim (cs : List Char) : List Char :=
  trimEnd (trimStart cs)

/-- The text without white space at either end. -/
def trimString (s : String) : String :=
  String.ofList (trim s.toList)

/-- The part before the first `c` and the part after it, if `c` occurs. -/
def splitOnce? (c : Char) : List Char → Option (List Char × List Char)
  | [] => none
  | d :: rest =>
    if d = c then some ([], rest)
    else (splitOnce? c rest).map fun (before, after) => (d :: before, after)

theorem splitOnce?_eq_some_iff {c : Char} {cs before after : List Char} :
    splitOnce? c cs = some (before, after) ↔ cs = before ++ c :: after ∧ c ∉ before := by
  induction cs generalizing before with
  | nil => simp [splitOnce?]
  | cons d cs ih =>
    unfold splitOnce?
    by_cases hd : d = c
    · subst hd
      cases before with
      | nil => simp [eq_comm]
      | cons b before => simp +contextual
    · cases before with
      | nil => simp [hd]
      | cons b before =>
        simp only [hd, if_false, Option.map_eq_some_iff, Prod.exists, Prod.mk.injEq,
          List.cons.injEq, List.cons_append, List.mem_cons, not_or]
        constructor
        · rintro ⟨before, after, h, ⟨rfl, rfl⟩, rfl⟩
          obtain ⟨rfl, hc⟩ := ih.mp h
          exact ⟨⟨rfl, rfl⟩, Ne.symm hd, hc⟩
        · rintro ⟨⟨rfl, rfl⟩, _, hc⟩
          exact ⟨before, after, ih.mpr ⟨rfl, hc⟩, ⟨rfl, rfl⟩, rfl⟩

/-- The pieces between the characters that satisfy `p`, empty pieces included. -/
def splitWhere (p : Char → Bool) : List Char → List (List Char)
  | [] => [[]]
  | c :: rest =>
    if p c then [] :: splitWhere p rest
    else match splitWhere p rest with
      | [] => [[c]]
      | piece :: pieces => (c :: piece) :: pieces

/-- The pieces between white space, none of them empty. -/
def words (cs : List Char) : List (List Char) :=
  (splitWhere isBlank cs).filter (fun w => !w.isEmpty)

/-- What follows `start`, if the text begins with it. -/
def dropLeading? : (start : List Char) → List Char → Option (List Char)
  | [], cs => some cs
  | _ :: _, [] => none
  | a :: start, c :: cs => if a = c then dropLeading? start cs else none

theorem dropLeading?_eq_some_iff {start cs rest : List Char} :
    dropLeading? start cs = some rest ↔ cs = start ++ rest := by
  induction start generalizing cs with
  | nil => simp [dropLeading?]
  | cons a start ih =>
    cases cs with
    | nil => simp [dropLeading?]
    | cons c cs =>
      by_cases h : a = c
      · simp [dropLeading?, h, ih]
      · simp [dropLeading?, h, Ne.symm h]

/-- What precedes `ending`, if the text finishes with it. -/
def dropTrailing? (ending cs : List Char) : Option (List Char) :=
  (dropLeading? ending.reverse cs.reverse).map List.reverse

theorem dropTrailing?_eq_some_iff {ending cs rest : List Char} :
    dropTrailing? ending cs = some rest ↔ cs = rest ++ ending := by
  unfold dropTrailing?
  rw [Option.map_eq_some_iff]
  constructor
  · rintro ⟨r, h, rfl⟩
    rw [← List.reverse_inj, dropLeading?_eq_some_iff.mp h]
    simp
  · rintro rfl
    exact ⟨rest.reverse, dropLeading?_eq_some_iff.mpr (List.reverse_append ..), by simp⟩

/-- The text before the first occurrence of `mark` and the text after it. -/
def splitAtMark? (mark : List Char) : List Char → Option (List Char × List Char)
  | [] => if mark.isEmpty then some ([], []) else none
  | c :: rest =>
    match dropLeading? mark (c :: rest) with
    | some after => some ([], after)
    | none => (splitAtMark? mark rest).map fun (before, after) => (c :: before, after)

/-- A text with blanks in front of it until it has `width` characters. -/
def padLeft (width : Nat) (s : String) : String :=
  String.ofList (List.replicate (width - s.length) ' ') ++ s

/-- A text with blanks after it until it has `width` characters. -/
def padRight (width : Nat) (s : String) : String :=
  s ++ String.ofList (List.replicate (width - s.length) ' ')

end Storyboard.Text
