import Storyboard.OrderedMap
import Storyboard.Settings.Value

/-!
# What a settings file defines

Every table and every value is defined once. A table that came about on the way to the header of
another may get a header of its own; one that came about by a key of several parts may get
further entries by such keys only. A list of tables grows by a table with each of its headers, and
what is defined under it goes to the last one.
-/

namespace Storyboard.Toml

/-- How something under a path came about. -/
inductive Standing where
  | value
  /-- A table on the way to a header. -/
  | passed
  /-- A table on the way to an entry. -/
  | dotted
  /-- A table with a header of its own. -/
  | headed
  /-- A list of tables, each with a header. -/
  | rows
  deriving DecidableEq, Repr

/-- Changes a value, or the last item of a list. -/
def atLast (f : ConfigValue → ConfigValue) : ConfigValue → ConfigValue
  | .list exact items => .list exact (items.dropLast ++ (items.getLast?.map f).toList)
  | v => f v

/-- Puts something under a path of keys, opening the tables on the way. -/
def putUnder (path : List String) (f : ConfigValue → ConfigValue) : ConfigValue → ConfigValue :=
  match path with
  | [] => f
  | key :: path => atLast fun v =>
    let entries : OrderedMap String ConfigValue := match v with
      | .table entries => ⟨entries⟩
      | _ => {}
    .table (entries.insert key (putUnder path f ((entries.get? key).getD (.table [])))).entries

/-- A list of tables with a further one. -/
def addRow : ConfigValue → ConfigValue
  | .list exact items => .list exact (items ++ [.table []])
  | _ => .list false [.table []]

/-- What has been defined so far. -/
structure Definitions where
  root : ConfigValue := .table []
  /-- The table that entries go to. -/
  current : List String := []
  standings : OrderedMap (List String) Standing := {}
  deriving Repr

namespace Definitions

def standing? (d : Definitions) (path : List String) : Option Standing :=
  d.standings.get? path

def set (d : Definitions) (path : List String) (s : Standing) : Definitions :=
  { d with standings := d.standings.insert path s }

/-- Goes through the table under a path; `opened` is the standing it gets if it is new. An entry
does not lead through a table with a header. -/
def pass? (opened : Standing) (d : Definitions) (path : List String) : Option Definitions :=
  match d.standing? path with
  | none => some (d.set path opened)
  | some .value => none
  | some .headed => if opened = .dotted then none else some d
  | some .passed | some .dotted | some .rows => some d

/-- The paths that extend `base` by some, not all, parts of a key. -/
def between (base key : List String) : List (List String) :=
  (List.range (key.length - 1)).map fun n => base ++ key.take (n + 1)

/-- Begins the table of a header. -/
def addHeader? (d : Definitions) (path : List String) : Option Definitions := do
  let d ← (between [] path).foldlM (pass? .passed) d
  match d.standing? path with
  | none | some .passed =>
    some { d.set path .headed with root := putUnder path id d.root, current := path }
  | _ => none

/-- Forgets what has been defined below a path. -/
def forgetBelow (d : Definitions) (path : List String) : Definitions :=
  { d with
    standings := ⟨d.standings.entries.filter fun e => e.1 = path || !path.isPrefixOf e.1⟩ }

/-- Begins a further table of a list of tables. -/
def addRowHeader? (d : Definitions) (path : List String) : Option Definitions := do
  let d ← (between [] path).foldlM (pass? .passed) d
  match d.standing? path with
  | none | some .rows =>
    some { (d.forgetBelow path).set path .rows with
      root := putUnder path addRow d.root, current := path }
  | _ => none

/-- Adds an entry to the current table. -/
def addEntry? (d : Definitions) (key : List String) (value : ConfigValue) :
    Option Definitions := do
  let tables := between d.current key
  let d ← tables.foldlM (pass? .dotted) d
  let path := d.current ++ key
  if tables.getLast?.any fun table => d.standing? table != some .dotted then none
  else if (d.standing? path).isSome then none
  else some { d.set path .value with root := putUnder path (fun _ => value) d.root }

end Definitions

end Storyboard.Toml
