import Storyboard.Program

/-!
# Failures and reports

Everything that can go wrong on the way from a command to its output, as causes, with one wording
for each. A report is what is shown of a failure or a diagnostic.
-/

namespace Storyboard

/-- Why a file cannot be read. -/
inductive FileError where
  | notFound
  | isDirectory
  /-- A part of the path before its end is a file. -/
  | notDirectory
  | nameTooLong
  | nulInName
  | other (reason : String)
  deriving DecidableEq, Repr

def FileError.message : FileError → String
  | notFound => "No such file or directory (os error 2)"
  | isDirectory => "Is a directory (os error 21)"
  | notDirectory => "Not a directory (os error 20)"
  | nameTooLong => "File name too long (os error 36)"
  | nulInName => "file name contained an unexpected NUL byte"
  | other reason => reason

inductive Failure (T : Type) where
  | file (e : FileError)
  | build (e : BuildError)
  | player (e : PlayerError T)
  /-- Playback was not over in the time that it was given. -/
  | unfinished (limit : T)
  | missingSettings (path : String)
  | malformedSettings
  deriving Repr

/-- What a failure is about. -/
inductive FailureArea where
  | file | document | layout | playback | settings
  deriving DecidableEq, Repr, Inhabited

namespace FailureArea

/-- The words in front of the details. Failures of a document speak for themselves. -/
def heading : FailureArea → String
  | file => "I/O error: "
  | document => ""
  | layout => "Layout error: "
  | playback => "Playback error: "
  | settings => "Config error: "

/-- The code of a report. Failures of a document have those of their diagnostics. -/
def code? : FailureArea → Option String
  | file => some "animflow::io"
  | document => none
  | layout => some "animflow::layout"
  | playback => some "animflow::playback"
  | settings => some "animflow::config"

end FailureArea

def BuildError.area : BuildError → FailureArea
  | parse _ _ => .document
  | layout _ => .layout
  | theme _ => .settings

def BuildError.detail : BuildError → String
  | parse failure _ => failure.message
  | layout e => e.message
  | theme e => e.message

namespace Failure

variable {T : Type} [Scalar T]

def area : Failure T → FailureArea
  | file _ => .file
  | build e => e.area
  | player _ | unfinished _ => .playback
  | missingSettings _ | malformedSettings => .settings

def detail : Failure T → String
  | file e => e.message
  | build e => e.detail
  | player e => e.message
  | unfinished limit => "playback did not finish within " ++ Scalar.render limit ++ "s"
  | missingSettings path => "Missing configuration file: " ++ path
  | malformedSettings => "Failed to parse TOML configuration:"

def message (f : Failure T) : String := f.area.heading ++ f.detail

end Failure

/-! ### Reports -/

structure Report where
  text : String
  code : Option String := none
  severity : Option Severity := none
  labels : List Label := []
  help : Option String := none
  /-- The source that the labels are about. -/
  source : Option String := none
  deriving DecidableEq, Repr

/-- The report of a diagnostic about a source. -/
def Report.ofDiagnostic (source : String) (d : Diagnostic) : Report :=
  { text := d.message, code := d.code.map Code.name, severity := some d.severity
    labels := d.labels, help := d.help, source := some source }

/-- One report for each diagnostic of a document, one for any other failure. -/
def Failure.reports {T : Type} [Scalar T] (f : Failure T) : List Report :=
  match f with
  | .build (.parse failure source) => failure.diagnostics.map (Report.ofDiagnostic source)
  | f => [{ text := f.message, code := f.area.code? }]

end Storyboard
