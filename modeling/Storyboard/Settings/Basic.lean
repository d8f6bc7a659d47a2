import Storyboard.Diagram.Options
import Storyboard.Layout.Layered
import Storyboard.Settings.Value
import Storyboard.Timeline.Compile

/-!
# Application settings

The defaults of the application for playback, theme, narration and layout, and how a
configuration changes them. A document's own options come before those of the application.
-/

namespace Storyboard

structure PlaybackSettings (T : Type) where
  /-- Ticks per second of the host. -/
  tickRate : T
  speed : T
  narration : Bool := true
  looping : Bool := false
  deriving Repr

/-- Colors as they are written, and the defaults of the camera. -/
structure ThemeSettings (G : Type) where
  nodeFill : String := "#ffffff"
  edgeStroke : String := "#555555"
  highlightColor : String := "#FFD700"
  cameraPadding : G
  focusZoom : G
  deriving Repr

structure Settings (T G : Type) where
  playback : PlaybackSettings T
  theme : ThemeSettings G
  /-- The pace of simulated speech. -/
  charsPerSecond : T
  layout : Spacing G
  deriving Repr

/-- A color of the theme that does not read. -/
structure ThemeError where
  key : String
  color : ColorError
  deriving DecidableEq, Repr

def ThemeError.message (e : ThemeError) : String :=
  "Invalid " ++ e.key ++ " in config: " ++ e.color.message

variable {T G : Type} [Scalar T] [Scalar G] [Narrow T G]

namespace PlaybackSettings

def standard : PlaybackSettings T := { tickRate := 30, speed := 1 }

/-- The settings with those of a document in front of them. -/
def mergedWith (s : PlaybackSettings T) (o : DocumentOptions T) : PlaybackSettings T :=
  { tickRate := (o.frameRate.filter (fun rate => (0 : T) < rate)).getD s.tickRate
    speed := o.speed.getD s.speed
    narration := o.narrates?.getD s.narration
    looping := o.looping.getD s.looping }

end PlaybackSettings

namespace ThemeSettings

def standard : ThemeSettings G :=
  { cameraPadding := CameraMove.defaultPadding, focusZoom := CameraMove.defaultZoom }

variable (T) in
/-- A color of the theme, read. -/
def color (key text : String) : Except ThemeError (Color G) :=
  (Color.read T text).mapError fun e => ⟨key, e⟩

variable (T) in
def readNodeFill (t : ThemeSettings G) : Except ThemeError (Color G) :=
  color T "node_fill" t.nodeFill

variable (T) in
def readEdgeStroke (t : ThemeSettings G) : Except ThemeError (Color G) :=
  color T "edge_stroke" t.edgeStroke

variable (T) in
def readHighlightColor (t : ThemeSettings G) : Except ThemeError (Color G) :=
  color T "highlight_color" t.highlightColor

variable (T) in
/-- The theme as what compiling needs. -/
def compileOptions (t : ThemeSettings G) : Except ThemeError (CompileOptions G) :=
  return {
    nodeFill := ← t.readNodeFill T
    edgeStroke := ← t.readEdgeStroke T
    highlightColor := ← t.readHighlightColor T
    cameraPadding := t.cameraPadding
    focusZoom := t.focusZoom }

end ThemeSettings

def Spacing.standard : Spacing G := ⟨80, 120⟩

namespace Settings

def standard : Settings T G :=
  { playback := .standard, theme := .standard, charsPerSecond := 15, layout := .standard }

instance : Inhabited (Settings T G) := ⟨standard⟩

def withSpeed (s : Settings T G) (speed : T) : Settings T G :=
  { s with playback := { s.playback with speed } }

def withNarration (s : Settings T G) (narration : Bool) : Settings T G :=
  { s with playback := { s.playback with narration } }

/-! ### From a configuration -/

open ConfigValue

def playbackOf (entries : List (String × ConfigValue)) :
    Except WrongType (PlaybackSettings T) :=
  let d : PlaybackSettings T := .standard
  return {
    tickRate := ← field entries asNumber? "tick_rate" d.tickRate
    speed := ← field entries asNumber? "speed" d.speed
    narration := ← field entries asBool? "narration" d.narration
    looping := ← field entries asBool? "looping" d.looping }

variable (T) in
def themeOf (entries : List (String × ConfigValue)) : Except WrongType (ThemeSettings G) :=
  let d : ThemeSettings G := .standard
  return {
    nodeFill := ← field entries asText? "node_fill" d.nodeFill
    edgeStroke := ← field entries asText? "edge_stroke" d.edgeStroke
    highlightColor := ← field entries asText? "highlight_color" d.highlightColor
    cameraPadding := ← field entries (asNarrow? T) "camera_padding" d.cameraPadding
    focusZoom := ← field entries (asNarrow? T) "focus_zoom" d.focusZoom }

variable (T) in
def spacingOf (entries : List (String × ConfigValue)) : Except WrongType (Spacing G) :=
  let d : Spacing G := .standard
  return {
    node := ← field entries (asNarrow? T) "node_spacing" d.node
    rank := ← field entries (asNarrow? T) "rank_spacing" d.rank }

/-- The entries of a section, none if it is missing. -/
def sectionOf (entries : List (String × ConfigValue)) (key : String) (names : List String) :
    Except WrongType (List (String × ConfigValue)) :=
  field entries (fields? names) key []

/-- The settings of a configuration. -/
def ofValue (v : ConfigValue) : Except WrongType (Settings T G) := do
  let some entries := v.fields? ["playback", "theme", "narration", "layout"]
    | throw ⟨""⟩
  let playback ← sectionOf entries "playback" ["tick_rate", "speed", "narration", "looping"]
  let theme ← sectionOf entries "theme"
    ["node_fill", "edge_stroke", "highlight_color", "camera_padding", "focus_zoom"]
  let narration ← sectionOf entries "narration" ["chars_per_second"]
  let layout ← sectionOf entries "layout" ["node_spacing", "rank_spacing"]
  return {
    playback := ← playbackOf playback
    theme := ← themeOf T theme
    charsPerSecond := ← field narration asNumber? "chars_per_second" 15
    layout := ← spacingOf T layout }

end Settings

end Storyboard
