import Storyboard.Diagnostic.Basic
import Storyboard.Text.Blank

/-!
# Source lines

A document is read line by line. Each line knows its byte offset, so that whatever is said
about it can point back at the source.
-/

namespace Storyboard.Document

open Text

/-- A line without its end, and the byte at which it starts. -/
structure Line where
  text : List Char
  offset : Nat
  deriving DecidableEq, Repr, Inhabited

namespace Line

/-- The line without white space at its ends. -/
def trimmed (l : Line) : List Char := trim l.text

/-- The byte at which the trimmed line starts. -/
def start (l : Line) : Nat :=
  l.offset + byteLength (l.text.takeWhile isBlank)

/-- The bytes of the trimmed line. -/
def span (l : Line) : Span :=
  ⟨l.start, l.start + byteLength l.trimmed⟩

def isEmpty (l : Line) : Bool := l.trimmed.isEmpty

/-- Whether the line is a remark, which says nothing. -/
def isComment (l : Line) : Bool := (dropLeading? ['%', '%'] l.trimmed).isSome

def isIndented (l : Line) : Bool :=
  match l.text with
  | c :: _ => c = ' ' || c = '\t'
  | [] => false

/-- Whether the line says anything. -/
def isMeaningful (l : Line) : Bool := !l.isEmpty && !l.isComment

end Line

/-- A text without one carriage return at its end. -/
def dropReturn (cs : List Char) : List Char :=
  (dropTrailing? ['\r'] cs).getD cs

/-- Gives each piece of a text the offset at which it starts. -/
def placeLines : Nat → List (List Char) → List Line
  | _, [] => []
  | offset, piece :: pieces =>
    ⟨dropReturn piece, offset⟩ :: placeLines (offset + byteLength piece + 1) pieces

def linesOf (source : List Char) : List Line :=
  placeLines 0 (splitWhere (· = '\n') source)

/-- Runs a state through the lines and collects what is said about them, in order. -/
def scan {σ : Type} (f : σ → Line → σ × List Diagnostic) :
    σ → List Line → σ × List Diagnostic
  | s, [] => (s, [])
  | s, l :: ls =>
    let (s, said) := f s l
    let (s, later) := scan f s ls
    (s, said ++ later)

theorem scan_cons {σ : Type} (f : σ → Line → σ × List Diagnostic) (s : σ) (l : Line)
    (ls : List Line) : scan f s (l :: ls) =
      ((scan f (f s l).1 ls).1, (f s l).2 ++ (scan f (f s l).1 ls).2) := rfl

theorem scan_append {σ : Type} (f : σ → Line → σ × List Diagnostic) (s : σ) (as bs : List Line) :
    scan f s (as ++ bs) =
      ((scan f (scan f s as).1 bs).1, (scan f s as).2 ++ (scan f (scan f s as).1 bs).2) := by
  induction as generalizing s with
  | nil => rfl
  | cons l as ih => simp [scan, ih, List.append_assoc]

/-- What each step keeps of the state holds after the whole scan. -/
theorem scan_keeps {σ : Type} {P : σ → Prop} {f : σ → Line → σ × List Diagnostic}
    (step : ∀ s l, P s → P (f s l).1) (ls : List Line) {s : σ} (holds : P s) :
    P (scan f s ls).1 := by
  induction ls generalizing s with
  | nil => exact holds
  | cons l ls ih => exact ih (step s l holds)

/-- A scan whose steps collect something from each line. -/
theorem scan_collects {σ α : Type} {P : σ → List α → Prop} {f : σ → Line → σ × List Diagnostic}
    {g : Line → List α} (step : ∀ s l as, P s as → P (f s l).1 (as ++ g l)) (ls : List Line) {s : σ}
    {as : List α} (holds : P s as) : P (scan f s ls).1 (as ++ ls.flatMap g) := by
  induction ls generalizing s as with
  | nil => rwa [List.flatMap_nil, List.append_nil]
  | cons l ls ih =>
    rw [List.flatMap_cons, ← List.append_assoc]
    exact ih (step s l as holds)

/-- The same for the lines that say anything. -/
def scanMeaningful {σ : Type} (f : σ → Line → σ × List Diagnostic) (s : σ) (ls : List Line) :
    σ × List Diagnostic :=
  scan f s (ls.filter Line.isMeaningful)

theorem scanMeaningful_append {σ : Type} (f : σ → Line → σ × List Diagnostic) (s : σ)
    (as bs : List Line) : scanMeaningful f s (as ++ bs) =
      ((scanMeaningful f (scanMeaningful f s as).1 bs).1,
        (scanMeaningful f s as).2 ++ (scanMeaningful f (scanMeaningful f s as).1 bs).2) := by
  rw [scanMeaningful, List.filter_append, scan_append]
  rfl

/-- A line at which the state stays as it is does not matter to what becomes of the state. -/
theorem scanMeaningful_skip {σ : Type} {f : σ → Line → σ × List Diagnostic} {s : σ}
    {before after : List Line} {l : Line}
    (skips : (f (scanMeaningful f s before).1 l).1 = (scanMeaningful f s before).1) :
    (scanMeaningful f s (before ++ l :: after)).1 = (scanMeaningful f s (before ++ after)).1 := by
  rw [scanMeaningful_append, scanMeaningful_append f s before after]
  generalize (scanMeaningful f s before).1 = t at skips ⊢
  show (scanMeaningful f t (l :: after)).1 = (scanMeaningful f t after).1
  cases speaks : l.isMeaningful with
  | false => simp only [scanMeaningful, List.filter_cons, speaks, Bool.false_eq_true, if_false]
  | true =>
    simp only [scanMeaningful, List.filter_cons, speaks, if_true]
    show (scan f (f t l).1 _).1 = _
    rw [skips]

/-- Lines at which a state stays as it is leave it as it is. -/
theorem scanMeaningful_stays {σ : Type} {f : σ → Line → σ × List Diagnostic} {s : σ} {ls : List Line}
    (stays : ∀ l ∈ ls, l.isMeaningful = true → (f s l).1 = s) : (scanMeaningful f s ls).1 = s := by
  induction ls with
  | nil => rfl
  | cons l ls ih =>
    have rest := ih fun m member => stays m (List.mem_cons_of_mem _ member)
    cases speaks : l.isMeaningful with
    | false => rwa [scanMeaningful, List.filter_cons_of_neg (by simp [speaks])]
    | true =>
      rw [scanMeaningful, List.filter_cons_of_pos speaks]
      show (scanMeaningful f (f s l).1 ls).1 = s
      rw [stays l List.mem_cons_self speaks, rest]

end Storyboard.Document
