import Storyboard.Diagram.Property

/-!
# Document options

What a document says about its own playback. `DocumentOptions.set` applies one line and
refuses a value that does not fit its key; an option that is not set is left to the
application.
-/

namespace Storyboard

structure DocumentOptions (T : Type) where
  autoplay : Option Bool := none
  looping : Option Bool := none
  controls : Option Bool := none
  timeline : Option Bool := none
  narration : Option Bool := none
  speech : Option Bool := none
  speed : Option T := none
  width : Option T := none
  height : Option T := none
  frameRate : Option T := none
  background : Option String := none
  padding : Option String := none
  quality : Option String := none
  voice : Option String := none
  speechRate : Option T := none
  /-- Keys without an option of their own. -/
  extra : OrderedMap String (PropertyValue T) := {}
  deriving Repr, Inhabited

/-- Why a value does not fit its key. -/
inductive OptionFault (T : Type) where
  | notBool (key : String) (found : PropertyValue T)
  | notNumber (key : String) (found : PropertyValue T)
  | speedNotPositive (found : T)
  deriving Repr

variable {T : Type} [Scalar T]

def OptionFault.message : OptionFault T → String
  | notBool key found => "`" ++ key ++ "` expects true or false, found `" ++ found.render ++ "`"
  | notNumber key found => "`" ++ key ++ "` expects a number, found `" ++ found.render ++ "`"
  | speedNotPositive found => "`speed` must be positive, found " ++ Scalar.render found

namespace DocumentOptions

def expectBool (key : String) (value : PropertyValue T) : Except (OptionFault T) Bool :=
  match value.asBool? with
  | some b => .ok b
  | none => .error (.notBool key value)

def expectNumber (key : String) (value : PropertyValue T) : Except (OptionFault T) T :=
  match value.asNumber? with
  | some n => .ok n
  | none => .error (.notNumber key value)

/-- Sets one option. The value is checked before anything is written. -/
def set (o : DocumentOptions T) (key : String) (value : PropertyValue T) :
    Except (OptionFault T) (DocumentOptions T) :=
  match key with
  | "autoplay" => return { o with autoplay := ← expectBool key value }
  | "loop" => return { o with looping := ← expectBool key value }
  | "controls" => return { o with controls := ← expectBool key value }
  | "timeline" => return { o with timeline := ← expectBool key value }
  | "narration" => return { o with narration := ← expectBool key value }
  | "tts" => return { o with speech := ← expectBool key value }
  | "speed" => do
    let speed ← expectNumber key value
    if speed ≤ 0 then throw (.speedNotPositive speed)
    return { o with speed }
  | "width" => return { o with width := ← expectNumber key value }
  | "height" => return { o with height := ← expectNumber key value }
  | "fps" => return { o with frameRate := ← expectNumber key value }
  | "tts-rate" => return { o with speechRate := ← expectNumber key value }
  | "background" => return { o with background := value.render }
  | "padding" => return { o with padding := value.render }
  | "quality" => return { o with quality := value.render }
  | "tts-voice" => return { o with voice := value.render }
  | _ => return { o with extra := o.extra.insert key value }

def autoplays (o : DocumentOptions T) : Bool := o.autoplay.getD true

def showsControls (o : DocumentOptions T) : Bool := o.controls.getD true

def showsTimeline (o : DocumentOptions T) : Bool := o.timeline.getD true

/-- Whether the document asks for narration. Speech counts where narration is not mentioned. -/
def narrates? (o : DocumentOptions T) : Option Bool := o.narration <|> o.speech

end DocumentOptions

end Storyboard
