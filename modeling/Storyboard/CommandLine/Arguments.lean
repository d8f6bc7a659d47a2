import Storyboard.Number.Scalar

/-!
# Command-line arguments

A command line names a task and an input file, with options before, between or after them.
`Arguments.parse` reads it from left to right. An option that has its value is settled only when
something else follows, so that of two mistakes the one further left may be told second.
-/

namespace Storyboard.CommandLine

/-- Why a command line asks for no task. -/
inductive Usage where
  | help
  | version
  | nothingGiven
  | missingTask
  | unknownTask
  | missingInput
  /-- An option that does not exist here, or one argument too many. -/
  | unknownArgument
  | missingValue
  | unexpectedValue
  | notANumber
  | givenTwice
  deriving DecidableEq, Repr

inductive TaskName where
  | check | timeline | play
  deriving DecidableEq, Repr, Inhabited

def TaskName.ofName? : String → Option TaskName
  | "check" => some check
  | "timeline" => some timeline
  | "play" => some play
  | _ => none

inductive CliOption where
  | config | logLevel | speed | maxSeconds | realTime | noNarration | help | version
  deriving DecidableEq, Repr, Inhabited

namespace CliOption

def takesValue : CliOption → Bool
  | config | logLevel | speed | maxSeconds => true
  | realTime | noNarration | help | version => false

def takesNumber : CliOption → Bool
  | speed | maxSeconds => true
  | _ => false

/-- Whether an option is known before the name of the task, or after it. -/
def isKnown (o : CliOption) : Option TaskName → Bool
  | none => o ∈ [config, logLevel, help, version]
  | some .play => o ∈ [config, logLevel, help, speed, maxSeconds, realTime, noNarration]
  | some _ => o ∈ [config, logLevel, help]

def ofLongName? : String → Option CliOption
  | "config" => some config
  | "log-level" => some logLevel
  | "speed" => some speed
  | "max-seconds" => some maxSeconds
  | "realtime" => some realTime
  | "no-narration" => some noNarration
  | "help" => some help
  | "version" => some version
  | _ => none

def ofShortName? : Char → Option CliOption
  | 'c' => some config
  | 'h' => some help
  | 'V' => some version
  | _ => none

end CliOption

/-! ### Collecting -/

/-- What has been read so far at one level of a command line. -/
structure Collected where
  /-- The options that are settled, with their values. -/
  options : List (CliOption × String) := []
  /-- An option that is not settled yet, and its value if it has one. -/
  pending : Option (CliOption × Option String) := none
  input : Option String := none
  deriving Repr

namespace Collected

def value? (c : Collected) (o : CliOption) : Option String := c.options.lookup o

def has (c : Collected) (o : CliOption) : Bool := (c.value? o).isSome

def isAwaiting (c : Collected) : Bool :=
  match c.pending with
  | some (_, none) => true
  | _ => false

/-- Settles an option. -/
def settle (c : Collected) (o : CliOption) (value : String) : Except Usage Collected :=
  if c.has o then .error .givenTwice
  else if o.takesNumber ∧ (Number.Literal.read? value.toList).isNone then .error .notANumber
  else .ok { c with options := c.options ++ [(o, value)] }

/-- Settles the pending option, if there is one. -/
def flush (c : Collected) : Except Usage Collected :=
  match c.pending with
  | none => .ok c
  | some (_, none) => .error .missingValue
  | some (o, some value) => { c with pending := none }.settle o value

/-- Takes an option, with the value that is attached to it. -/
def takeOption (c : Collected) (o : CliOption) (attached : Option String) :
    Except Usage Collected :=
  if o.takesValue then do
    let c ← c.flush
    match attached with
    | some value => c.settle o value
    | none => return { c with pending := some (o, none) }
  else if attached.isSome then .error .unexpectedValue
  else do
    let c ← c.flush
    match o with
    | .help => throw .help
    | .version => throw .version
    | o => c.settle o ""

/-- Takes an argument that starts with two dashes. -/
def takeLong (task : Option TaskName) (c : Collected) (body : List Char) :
    Except Usage Collected :=
  let name := body.takeWhile (· != '=')
  let attached := match body.dropWhile (· != '=') with
    | [] => none
    | _ :: value => some (String.ofList value)
  match (CliOption.ofLongName? (String.ofList name)).filter (·.isKnown task) with
  | some o => c.takeOption o attached
  | none => .error .unknownArgument

/-- Takes the letters after a single dash. The first one with a value takes all the rest. -/
def takeShort (task : Option TaskName) (c : Collected) : List Char → Except Usage Collected
  | [] => .ok c
  | letter :: rest =>
    match (CliOption.ofShortName? letter).filter (·.isKnown task) with
    | none => .error .unknownArgument
    | some o =>
      if o.takesValue then
        match rest with
        | [] => c.takeOption o none
        | '=' :: value => c.takeOption o (some (String.ofList value))
        | value => c.takeOption o (some (String.ofList value))
      else do
        let c ← c.takeOption o none
        takeShort task c rest

/-- Takes an argument that is no option: the input, after the name of a task. -/
def takePlain (task : Option TaskName) (c : Collected) (arg : String) : Except Usage Collected :=
  match task, c.input with
  | none, _ => .error .unknownTask
  | some _, some _ => .error .unknownArgument
  | some _, none => do
    let c ← c.flush
    return { c with input := some arg }

/-- Takes one argument, before any argument that consists of two dashes. -/
def take (task : Option TaskName) (c : Collected) (arg : String) : Except Usage Collected :=
  match arg.toList with
  | '-' :: '-' :: body => c.takeLong task body
  | '-' :: letter :: rest => c.takeShort task (letter :: rest)
  | _ =>
    match c.pending with
    | some (o, none) => .ok { c with pending := some (o, some arg) }
    | _ => c.takePlain task arg

/-- Takes the arguments after the name of a task. -/
def takeAfterTask (task : TaskName) : Collected → List String → Except Usage Collected
  | c, [] => c.flush
  | c, "--" :: rest => do
    (← rest.foldlM (takePlain (some task)) c).flush
  | c, arg :: rest => do
    takeAfterTask task (← c.take (some task) arg) rest

end Collected

/-! ### The whole line -/

/-- What `help` is asked about: nothing, or one task. -/
def helpOn : List String → Usage
  | [] => .help
  | [name] => if name = "help" ∨ (TaskName.ofName? name).isSome then .help else .unknownTask
  | _ => .unknownTask

/-- What is said of a line of which only plain arguments are left. -/
def withoutTask : List String → Usage
  | [] => .missingTask
  | name :: _ =>
    if name = "help" ∨ (TaskName.ofName? name).isSome then .unknownArgument else .unknownTask

/-- What is said of a line that ends without a task. -/
def endWithoutTask (c : Collected) : Usage :=
  match c.flush with
  | .error e => e
  | .ok c => if c.options.isEmpty then .nothingGiven else .missingTask

/-- Reads a line up to the name of its task, and then the rest. -/
def takeLine : Collected → List String → Except Usage (Collected × TaskName × Collected)
  | c, [] => .error (endWithoutTask c)
  | c, arg :: rest =>
    if !c.isAwaiting ∧ arg = "help" then .error (helpOn rest)
    else match (if c.isAwaiting then none else TaskName.ofName? arg) with
      | some task => do
        let inner ← Collected.takeAfterTask task {} rest
        if inner.input.isNone then throw .missingInput
        return (← c.flush, task, inner)
      | none =>
        if arg = "--" then
          match rest with
          | [] => .error (endWithoutTask c)
          | rest => .error (withoutTask rest)
        else do takeLine (← c.take none arg) rest

/-! ### Tasks -/

structure PlayOptions (T : Type) where
  speed : Option T := none
  /-- Whether the host should keep the pace of a wall clock. What is written does not change. -/
  realTime : Bool := false
  narration : Bool := true
  maxSeconds : T
  deriving Repr

inductive Task (T : Type) where
  /-- Reports what is wrong with a document. -/
  | check
  /-- Prints the boundaries and the cues. -/
  | timeline
  /-- Plays without a screen, with simulated narration. -/
  | play (o : PlayOptions T)
  deriving Repr

structure Arguments (T : Type) where
  task : Task T
  input : String
  config : Option String := none
  logLevel : String := "info"
  deriving Repr

variable {T : Type} [Scalar T]

def Collected.number? (c : Collected) (o : CliOption) : Option T :=
  (c.value? o).bind fun value => (Number.Literal.read? value.toList).map Scalar.ofLiteral

def TaskName.task (name : TaskName) (c : Collected) : Task T :=
  match name with
  | check => .check
  | timeline => .timeline
  | play => .play {
      speed := c.number? .speed
      realTime := c.has .realTime
      narration := !c.has .noNarration
      maxSeconds := (c.number? .maxSeconds).getD 600 }

/-- Reads a command line. An option given after the task comes before the same one given in
front of it. -/
def Arguments.parse (args : List String) : Except Usage (Arguments T) := do
  let (outer, name, inner) ← takeLine {} args
  let shared (o : CliOption) := inner.value? o <|> outer.value? o
  return {
    task := name.task inner
    input := inner.input.getD ""
    config := shared .config
    logLevel := (shared .logLevel).getD "info" }

end Storyboard.CommandLine
