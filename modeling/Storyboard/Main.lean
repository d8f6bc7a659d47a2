import Storyboard.CommandLine.Run
import Storyboard.Number.Float

/-!
# The command line program

Reads the files that a command may need, runs the command and prints what it writes.
-/

namespace Storyboard.CommandLine

/-- What the file system says about a path. -/
def readPath (path : String) : IO (Except FileError String) := do
  match ← (IO.FS.readFile path).toBaseIO with
  | .ok text => return .ok text
  | .error (.noFileOrDirectory ..) => return .error .notFound
  | .error e => return .error (.other (toString e))

/-- The settings file of the user. -/
def userSettings? : IO (Option String) := do
  let base ← match ← IO.getEnv "XDG_CONFIG_HOME" with
    | some dir => pure (some dir)
    | none => return (← IO.getEnv "HOME").map (· ++ "/.config")
  return base.map (· ++ "/animflow/config.toml")

/-- The text of a report: its severity, code, message and help. -/
def Report.lines (r : Report) : List String :=
  let severity := (r.severity.getD .error).name
  let code := (r.code.map ("[" ++ · ++ "]")).getD ""
  (severity ++ code ++ ": " ++ r.text) :: (r.help.map ("  help: " ++ ·)).toList

def Usage.text : Usage → String
  | .help => "usage: [-c FILE] [--log-level LEVEL] check|timeline|play INPUT\n" ++
      "play options: [--speed N] [--max-seconds N] [--realtime] [--no-narration]"
  | .version => "0.1.0"
  | .nothingGiven | .missingTask => "a task is missing: check, timeline or play"
  | .unknownTask => "unknown task"
  | .missingInput => "the input file is missing"
  | .unknownArgument => "unexpected argument"
  | .missingValue => "an option lacks its value"
  | .unexpectedValue => "an option that takes no value was given one"
  | .notANumber => "an option expects a number"
  | .givenTwice => "an option was given twice"

/-- Runs a command on the file system. -/
def runOnFiles (a : Arguments Float) : IO UInt32 := do
  let user ← userSettings?
  let paths := a.input :: localSettings :: (a.config.toList ++ user.toList)
  let contents ← paths.mapM fun path => return (path, ← readPath path)
  let disk : Disk := ⟨fun path => (contents.lookup path).getD (.error .notFound)⟩
  let outcome := a.run Float32 disk user
  for warning in outcome.warnings do
    for line in Report.lines warning do IO.println line
  IO.print outcome.output
  match outcome.failure with
  | none => return 0
  | some failure =>
    for report in failure.reports do
      for line in Report.lines report do IO.eprintln line
    return 1

end Storyboard.CommandLine

open Storyboard.CommandLine

def main (args : List String) : IO UInt32 := do
  match Arguments.parse args with
  | .ok a => runOnFiles a
  | .error .help => IO.println (Usage.text .help); return 0
  | .error .version => IO.println (Usage.text .version); return 0
  | .error usage => IO.eprintln usage.text; return 2
