import Storyboard.Document.Parse
import Storyboard.Playback.Player
import Storyboard.Settings.Basic

/-!
# Programs

A program is a document made ready to play: its diagram placed by a layout, and its timeline.
`Program.build` takes a source through parsing, layout and compiling; the first stage that fails
decides the error.
-/

namespace Storyboard

/-- Why a document gives no program. -/
inductive BuildError where
  /-- The source is kept for showing what the labels are about. -/
  | parse (failure : ParseFailure) (source : String)
  | layout (e : LayoutError)
  | theme (e : ThemeError)
  deriving DecidableEq, Repr

structure Program (T G : Type) where
  diagram : Diagram T G
  layout : Layout G
  timeline : Timeline T G
  warnings : List Diagnostic
  deriving Repr

variable {T G : Type} [Scalar T] [Scalar G] [Narrow T G]

namespace Settings

/-- Parses a document. -/
def parse (_ : Settings T G) (source : String) : Except BuildError (Document.Parsed T G) :=
  (Document.parse source).mapError fun failure => .parse failure source

/-- Lays a diagram out with the gaps of the settings. -/
def layOut (s : Settings T G) (d : Diagram T G) : Except BuildError (Diagram T G × Layout G) :=
  match Layered.layout s.layout d.direction d.nodes d.edges with
  | .ok l => .ok (d.placed l, l)
  | .error e => .error (.layout e)

/-- Compiles a diagram with the theme of the settings. -/
def compile (s : Settings T G) (d : Diagram T G) : Except BuildError (Timeline T G) :=
  match s.theme.compileOptions T with
  | .ok o => .ok (d.compile o)
  | .error e => .error (.theme e)

/-- A stopped player that follows the options of the document, or else the settings. -/
def player {σ : Type} (s : Settings T G) (d : Diagram T G) (t : Timeline T G) : Player T G σ :=
  let playback := s.playback.mergedWith d.options
  (((Player.ofTimeline d.captions t).withSpeed playback.speed).withNarration
    playback.narration).withLooping playback.looping

end Settings

namespace Program

def build (s : Settings T G) (source : String) : Except BuildError (Program T G) := do
  let parsed ← s.parse source
  let (diagram, layout) ← s.layOut parsed.diagram
  let timeline ← s.compile diagram
  return { diagram, layout, timeline, warnings := parsed.warnings }

/-- A stopped player of the program. -/
def player {σ : Type} (p : Program T G) (s : Settings T G) : Player T G σ :=
  s.player p.diagram p.timeline

end Program

end Storyboard
