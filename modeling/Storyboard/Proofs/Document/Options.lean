import Storyboard.Proofs.Document.Codes
import Storyboard.Proofs.Document.Mentions
import Storyboard.Proofs.OrderedMap
import Storyboard.Settings.Basic

/-!
# Options of a document

Each option of a document has the value of the last line for its key whose value the key takes, whatever
the lines for other keys are. A line with a value that its key does not take is reported and has no
other effect. The settings of playback are those of the document where it has any (`optionsOf_latest`).
-/

namespace Storyboard

open Text Diagnostic

/-- What the values of an option are. -/
inductive OptionKind where
  | truth
  | number
  /-- Numbers above zero. -/
  | positive
  /-- Values of every kind, kept as text. -/
  | text
  deriving DecidableEq

/-- The kind of the option that a key sets, if the key has an option of its own. -/
def optionKind? : String → Option OptionKind
  | "autoplay" | "loop" | "controls" | "timeline" | "narration" | "tts" => some .truth
  | "speed" => some .positive
  | "width" | "height" | "fps" | "tts-rate" => some .number
  | "background" | "padding" | "quality" | "tts-voice" => some .text
  | _ => none

/-! ### One option set -/

namespace DocumentOptions

section

variable {T : Type}

/-- The value of the option that a key sets. -/
def get? (o : DocumentOptions T) : String → Option (PropertyValue T)
  | "autoplay" => o.autoplay.map .bool
  | "loop" => o.looping.map .bool
  | "controls" => o.controls.map .bool
  | "timeline" => o.timeline.map .bool
  | "narration" => o.narration.map .bool
  | "tts" => o.speech.map .bool
  | "speed" => o.speed.map .number
  | "width" => o.width.map .number
  | "height" => o.height.map .number
  | "fps" => o.frameRate.map .number
  | "tts-rate" => o.speechRate.map .number
  | "background" => o.background.map .text
  | "padding" => o.padding.map .text
  | "quality" => o.quality.map .text
  | "tts-voice" => o.voice.map .text
  | key => o.extra.get? key

variable {key : String} (o : DocumentOptions T)

theorem get?_unknown (unknown : optionKind? key = none) : o.get? key = o.extra.get? key := by
  unfold get?
  split <;> first | rfl | cases unknown

theorem get?_extra (m : OrderedMap String (PropertyValue T)) {kind : OptionKind}
    (known : optionKind? key = some kind) :
    ({ o with extra := m } : DocumentOptions T).get? key = o.get? key := by
  unfold optionKind? at known
  split at known <;> first | rfl | cases known

/-- The option of the key has the value, and all else is as it was. A new key without an option of its
own goes to the end. -/
structure Sets (o : DocumentOptions T) (key : String) (value : PropertyValue T)
    (o' : DocumentOptions T) : Prop where
  here : o'.get? key = some value
  elsewhere : ∀ other, other ≠ key → o'.get? other = o.get? other
  extra : o'.extra.keys =
    if optionKind? key = none ∧ key ∉ o.extra.keys then o.extra.keys ++ [key] else o.extra.keys

end

end DocumentOptions

section

variable {T : Type} [Scalar T]

/-- Why a key does not take a value. A key without an option of its own takes every value. -/
def optionFault? (key : String) (value : PropertyValue T) : Option (OptionFault T) :=
  match optionKind? key, value with
  | some .truth, .bool _ | some .number, .number _ | some .text, _ | none, _ => none
  | some .positive, .number n => if n ≤ 0 then some (.speedNotPositive n) else none
  | some .truth, found => some (.notBool key found)
  | some _, found => some (.notNumber key found)

/-- What is kept of a value: the value itself, or its text. -/
def keptOption (key : String) (value : PropertyValue T) : PropertyValue T :=
  if optionKind? key = some .text then .text value.render else value

namespace DocumentOptions

variable {key : String} {value : PropertyValue T} (o : DocumentOptions T)

theorem set_speed (n : T) : o.set "speed" (.number n) =
    if n ≤ 0 then .error (.speedNotPositive n) else .ok { o with speed := some n } := by
  show (if n ≤ 0 then _ else _ : Except (OptionFault T) (DocumentOptions T)) = _
  split <;> rfl

/-- A key with an option of its own either refuses the value or sets this one option. -/
theorem set_known {kind : OptionKind} (known : optionKind? key = some kind) :
    (∃ f, optionFault? key value = some f ∧ o.set key value = .error f) ∨
    (optionFault? key value = none ∧
      ∃ o', o.set key value = .ok o' ∧ o.Sets key (keptOption key value) o') := by
  have same : o.extra.keys = if optionKind? key = none ∧ key ∉ o.extra.keys then
      o.extra.keys ++ [key] else o.extra.keys := (if_neg (by simp [known])).symm
  by_cases speed : ∃ n, key = "speed" ∧ value = .number n
  · obtain ⟨n, rfl, rfl⟩ := speed
    by_cases low : n ≤ 0
    · exact .inl ⟨_, if_pos low, (o.set_speed n).trans (if_pos low)⟩
    · refine .inr ⟨if_neg low, _, (o.set_speed n).trans (if_neg low), rfl, fun other apart => ?_, same⟩
      unfold get?
      split <;> first | rfl | exact absurd rfl apart
  · unfold optionKind? at known
    split at known <;> cases known <;> cases value <;> first
      | exact .inl ⟨_, rfl, rfl⟩
      | exact absurd ⟨_, rfl, rfl⟩ speed
      | refine .inr ⟨rfl, _, rfl, rfl, fun other apart => ?_, same⟩
        unfold get?
        split <;> first | rfl | exact absurd rfl apart

theorem optionFault?_unknown (unknown : optionKind? key = none) : optionFault? key value = none := by
  simp [optionFault?, unknown]

theorem set_unknown (unknown : optionKind? key = none) :
    ∃ o', o.set key value = .ok o' ∧ o.Sets key (keptOption key value) o' := by
  have done : o.set key value = .ok { o with extra := o.extra.insert key value } := by
    unfold set
    split <;> first | rfl | cases unknown
  refine ⟨_, done, ?_, fun other apart => ?_, ?_⟩
  · rw [get?_unknown _ unknown, OrderedMap.get?_insert, keptOption, unknown]
    simp
  · cases kind : optionKind? other with
    | some own => exact get?_extra o _ kind
    | none =>
      rw [get?_unknown _ kind, get?_unknown _ kind, OrderedMap.get?_insert]
      simp [apart.symm]
  · rw [OrderedMap.keys_insert]
    by_cases old : key ∈ o.extra.keys <;> simp [unknown, old, OrderedMap.contains_iff]

/-- A key either refuses a value or sets its option to it. -/
theorem set_cases (key : String) (value : PropertyValue T) :
    (∃ f, optionFault? key value = some f ∧ o.set key value = .error f) ∨
    (optionFault? key value = none ∧
      ∃ o', o.set key value = .ok o' ∧ o.Sets key (keptOption key value) o') := by
  cases kind : optionKind? key with
  | none => exact .inr ⟨optionFault?_unknown kind, o.set_unknown kind⟩
  | some own => exact o.set_known kind

end DocumentOptions

end

namespace Document

/-! ### Lines -/

/-- A line that sets an option: its key, and its value as it is read. -/
structure OptionLine (T : Type) where
  line : Line
  key : String
  value : PropertyValue T

section

variable {T : Type} [Scalar T]

namespace OptionLine

/-- Why the key of the line does not take its value. -/
def fault? (e : OptionLine T) : Option (OptionFault T) := optionFault? e.key e.value

/-- The values that some lines write for a key. -/
def written (es : List (OptionLine T)) (key : String) : List (PropertyValue T) :=
  (es.filter fun e => e.key = key).map value

/-- The last of the values for a key that the key takes. -/
def latest? (es : List (OptionLine T)) (key : String) : Option (PropertyValue T) :=
  ((written es key).filter fun v => (optionFault? key v).isNone).getLast?

def latestBool? (es : List (OptionLine T)) (key : String) : Option Bool :=
  (latest? es key).bind PropertyValue.asBool?

def latestNumber? (es : List (OptionLine T)) (key : String) : Option T :=
  (latest? es key).bind PropertyValue.asNumber?

variable {es : List (OptionLine T)} {e : OptionLine T} {key : String}

theorem latest?_concat_other (other : e.key ≠ key) : latest? (es ++ [e]) key = latest? es key := by
  simp [latest?, written, List.filter_append, other]

theorem latest?_concat_refused (refused : e.fault? ≠ none) :
    latest? (es ++ [e]) key = latest? es key := by
  by_cases own : e.key = key
  · subst own
    have fault : (optionFault? e.key e.value).isNone = false := Option.isNone_eq_false_iff.mpr
      (Option.isSome_iff_ne_none.mpr refused)
    simp [latest?, written, List.filter_append, fault]
  · exact latest?_concat_other own

theorem latest?_concat_own (fits : e.fault? = none) :
    latest? (es ++ [e]) e.key = some e.value := by
  have own : (optionFault? e.key e.value).isNone = true := by simpa [fault?] using fits
  simp [latest?, written, List.filter_append, own]

end OptionLine

def Line.option? (l : Line) : Option (OptionLine T) :=
  (splitProperty? l.trimmed).map fun (key, value) => ⟨l, String.ofList key, .ofText value⟩

theorem setOption_other (o : DocumentOptions T) {l : Line} (other : l.option? (T := T) = none) :
    setOption o l = (o, [(Fault.unrecognizedLine .config).located l.span]) := by
  simp only [setOption, Option.map_eq_none_iff.mp other]

/-- A line that sets an option is refused, or sets it without a word. -/
theorem setOption_cases (o : DocumentOptions T) {l : Line} {e : OptionLine T}
    (option : l.option? = some e) :
    (∃ f, e.fault? = some f ∧
      setOption o l = (o, [(Fault.invalidOption e.key f.message).located e.line.span])) ∨
    (e.fault? = none ∧
      ∃ o', setOption o l = (o', []) ∧ o.Sets e.key (keptOption e.key e.value) o') := by
  obtain ⟨⟨key, value⟩, split, rfl⟩ := Option.map_eq_some_iff.mp option
  rcases o.set_cases (String.ofList key) (.ofText value) with ⟨f, refused, failed⟩ | ⟨fits, o', done, sets⟩
  · exact .inl ⟨f, refused, by simp only [setOption, split, failed]⟩
  · exact .inr ⟨fits, o', by simp only [setOption, split, done], sets⟩

/-- The options hold the last values of the lines, the keys without an option in the order of their
first lines. -/
structure Holds (o : DocumentOptions T) (es : List (OptionLine T)) : Prop where
  values : ∀ key, o.get? key = (OptionLine.latest? es key).map (keptOption key)
  extra : o.extra.keys =
    ((es.map OptionLine.key).filter fun key => optionKind? key = none).eraseDups

namespace Holds

variable {o o' : DocumentOptions T} {es : List (OptionLine T)} {e : OptionLine T}

theorem refused {f : OptionFault T} (h : Holds o es) (refused : e.fault? = some f) :
    Holds o (es ++ [e]) := by
  refine ⟨fun key => ?_, ?_⟩
  · rw [OptionLine.latest?_concat_refused (by simp [refused]), h.values]
  · have known : optionKind? e.key ≠ none := fun unknown => by
      cases refused.symm.trans (DocumentOptions.optionFault?_unknown unknown)
    rw [h.extra, List.map_append, List.filter_append]
    simp [known]

theorem sets (h : Holds o es) (fits : e.fault? = none)
    (sets : o.Sets e.key (keptOption e.key e.value) o') : Holds o' (es ++ [e]) := by
  refine ⟨fun key => ?_, ?_⟩
  · by_cases own : e.key = key
    · rw [← own, OptionLine.latest?_concat_own fits, sets.here, Option.map_some]
    · rw [OptionLine.latest?_concat_other own, sets.elsewhere key (Ne.symm own), h.values]
  · rw [sets.extra, h.extra, List.map_append, List.filter_append]
    by_cases unknown : optionKind? e.key = none
    · have single : ([e].map OptionLine.key).filter (fun key => optionKind? key = none) = [e.key] := by
        simp [unknown]
      have member : e.key ∈ ((es.map OptionLine.key).filter fun key => optionKind? key = none).eraseDups ↔
          ((es.map OptionLine.key).filter fun key => optionKind? key = none).contains e.key = true := by
        rw [List.mem_eraseDups, List.contains_iff_mem]
      rw [single, eraseDups_concat]
      by_cases old : e.key ∈
          ((es.map OptionLine.key).filter fun key => optionKind? key = none).eraseDups
      · rw [if_neg (fun new => new.2 old), if_pos (member.mp old), List.append_nil]
      · rw [if_pos ⟨unknown, old⟩, if_neg (fun known => old (member.mpr known))]
    · simp [unknown]

theorem step (h : Holds o es) (l : Line) : Holds (setOption o l).1 (es ++ l.option?.toList) := by
  cases option : l.option? (T := T) with
  | none =>
    rw [setOption_other o option, Option.toList_none, List.append_nil]
    exact h
  | some e =>
    rcases setOption_cases o option with ⟨f, refused, done⟩ | ⟨fits, o', done, sets⟩
    · rw [done]
      exact h.refused refused
    · rw [done]
      exact h.sets fits sets

end Holds

namespace Holds

variable {o : DocumentOptions T} {es : List (OptionLine T)} (h : Holds o es) {key : String}
include h

theorem get?_of_kept (kind : optionKind? key ≠ some .text) :
    o.get? key = OptionLine.latest? es key := by
  have kept : keptOption key = (id : PropertyValue T → PropertyValue T) :=
    funext fun v => if_neg kind
  rw [h.values, kept, Option.map_id, id]

theorem bool (key : String) {stored : Option Bool} (same : o.get? key = stored.map .bool)
    (kind : optionKind? key ≠ some .text) : stored = OptionLine.latestBool? es key := by
  rw [OptionLine.latestBool?, ← h.get?_of_kept kind, same]
  cases stored <;> rfl

theorem number (key : String) {stored : Option T} (same : o.get? key = stored.map .number)
    (kind : optionKind? key ≠ some .text) : stored = OptionLine.latestNumber? es key := by
  rw [OptionLine.latestNumber?, ← h.get?_of_kept kind, same]
  cases stored <;> rfl

end Holds

end

end Document

end Storyboard
