import Storyboard.CommandLine.Arguments
import Storyboard.CommandLine.Disk
import Storyboard.CommandLine.Headless
import Storyboard.Session
import Storyboard.Settings.Toml.Document

/-!
# Running a command

`Arguments.run` does what a command line asks for, against a disk: it finds the settings, reads
and builds the document and writes the output of the task. What was written before a failure
stays written.
-/

namespace Storyboard.CommandLine

/-- What a command writes, and how it fails if it does. -/
structure Outcome (T : Type) where
  /-- What is wrong with the document, to be shown before the output. -/
  warnings : List Report := []
  output : String := ""
  failure : Option (Failure T) := none
  deriving Repr

variable {T G : Type} [Scalar T] [Scalar G] [Narrow T G]

/-! ### Settings -/

/-- The settings file of a project, looked for if none is named. -/
def localSettings : String := "animflow/config.toml"

/-- Reads a settings file. -/
def readSettings (d : Disk) (path : String) : Except (Failure T) (Settings T G) :=
  if !d.isPresent path then .error (.missingSettings path)
  else match d.read path with
    | .error e => .error (.file e)
    | .ok text =>
      match (Toml.read? text).map Settings.ofValue with
      | some (.ok s) => .ok s
      | _ => .error .malformedSettings

/-- The settings of the file that is named, or else of the first of the usual places where there
is one. `user` is the settings file of the user. -/
def findSettings (d : Disk) (named user : Option String) : Except (Failure T) (Settings T G) :=
  match named with
  | some path => readSettings d path
  | none =>
    match (localSettings :: user.toList).find? d.isPresent with
    | some path => readSettings d path
    | none => .ok .standard

/-! ### Tasks -/

def unlines (lines : List String) : String :=
  String.join (lines.map (· ++ "\n"))

def summary (input : String) (p : Program T G) : String :=
  input ++ ": " ++ toString p.diagram.nodes.length ++ " nodes, " ++
    toString p.diagram.edges.length ++ " edges, " ++
    toString p.timeline.boundaries.length ++ " steps, " ++
    toString p.warnings.length ++ " warnings"

/-- The duration, the boundaries and the cues of a timeline. -/
def listing (t : Timeline T G) : List String :=
  let seconds (time : T) := Scalar.renderFixed 3 time ++ "s"
  ["duration " ++ seconds t.duration] ++
    t.boundaries.map (fun b =>
      "step " ++ Text.padRight 3 (toString b.step) ++ " [" ++ seconds b.start ++ ", " ++
        seconds b.stop ++ ")") ++
    t.cues.map Cue.render

/-- The player of a command. It never loops. -/
def headlessPlayer (s : Settings T G) (p : Program T G) (o : PlayOptions T) :
    Except (Failure T) (Player T G (SimulatedNarrator T)) :=
  let rate := (p.diagram.options.speechRate.filter (fun rate => (0 : T) < rate)).getD 1
  let player := (((p.player s).withScreen { layout := p.layout }).withNarrator
    (SimulatedNarrator.ofPace (s.charsPerSecond * rate))).withLooping false
  let player := if o.narration then player else player.withNarration false
  match o.speed with
  | none => .ok player
  | some speed => (player.setSpeed speed).mapError .player

/-- What a command comes to that has played a program. -/
def Ending.outcome (ending : Ending) (maxSeconds : T) (lines : List String) : Outcome T :=
  match ending with
  | .finished => { output := unlines lines }
  | .outOfTime => { output := unlines lines, failure := some (.unfinished maxSeconds) }

/-- Plays a program. There is no outcome if the end does not come within a number of rounds. -/
def playProgram (s : Settings T G) (p : Program T G) (o : PlayOptions T) (n : Nat) :
    Option (Outcome T) :=
  match headlessPlayer s p o with
  | .error e => some { failure := some e }
  | .ok player => do
    let tick := Headless.tickLength (s.playback.mergedWith p.diagram.options).tickRate
    let (lines, ending) ← Headless.rounds tick o.maxSeconds n player.play 0 []
    return ending.outcome o.maxSeconds lines

/-- Does a task with a program, if a number of rounds is enough. -/
def Task.perform (task : Task T) (input : String) (s : Settings T G) (p : Program T G) (n : Nat) :
    Option (Outcome T) :=
  match task with
  | .check => some { output := unlines [summary input p] }
  | .timeline => some { output := unlines (listing p.timeline) }
  | .play o => playProgram s p o n

/-- Does what a command line asks for, if a number of rounds is enough. -/
def Arguments.run? (G : Type) [Scalar G] [Narrow T G] (a : Arguments T) (d : Disk)
    (user : Option String) (n : Nat) : Option (Outcome T) :=
  match (findSettings d a.config user : Except (Failure T) (Settings T G)) with
  | .error e => some { failure := some e }
  | .ok settings =>
    match d.read a.input with
    | .error e => some { failure := some (.file e) }
    | .ok source =>
      match ({ settings : Session T G }).update source with
      | (.error e, _) => some { failure := some (.build e) }
      | (.ok p, _) => do
        let outcome ← a.task.perform a.input settings p n
        return { outcome with warnings := p.warnings.map (Report.ofDiagnostic source) }

/-- More rounds than can be waited for. -/
def maxRounds : Nat := 0x1000000000000000

/-- Does what a command line asks for. -/
def Arguments.run (G : Type) [Scalar G] [Narrow T G] (a : Arguments T) (d : Disk)
    (user : Option String) : Outcome T :=
  (a.run? G d user maxRounds).getD {}

end Storyboard.CommandLine
