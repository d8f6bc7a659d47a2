import Storyboard.Number.Scalar

/-!
# Configuration values

A configuration is read as a tree of values first; its parts are then taken out by the type that
is expected of them. A part that is missing keeps its default, one of the wrong type is a fault.
-/

namespace Storyboard

open Number

inductive ConfigValue where
  /-- A value of a type that no setting has. -/
  | other
  | bool (b : Bool)
  /-- A number as it is written, and whether it is written without a fraction. -/
  | number (whole : Bool) (l : Literal)
  | text (s : String)
  /-- A list, and whether a record of its items has to use all of them. -/
  | list (exact : Bool) (items : List ConfigValue)
  | table (entries : List (String × ConfigValue))
  deriving Repr, Inhabited

/-- A value of another type than the one expected under a key. -/
structure WrongType where
  key : String
  deriving DecidableEq, Repr

namespace ConfigValue

/-- A record with the given fields, by name; a list gives the fields in their order. -/
def fields? (names : List String) : ConfigValue → Option (List (String × ConfigValue))
  | table entries => some entries
  | list exact items =>
    if exact ∧ names.length < items.length then none else some (names.zip items)
  | _ => none

def asBool? : ConfigValue → Option Bool
  | bool b => some b
  | _ => none

def asText? : ConfigValue → Option String
  | text s => some s
  | _ => none

def asNumber? {T : Type} [Scalar T] : ConfigValue → Option T
  | number _ l => some (Scalar.ofLiteral l)
  | _ => none

/-- A number in the narrower scalar. One with a fraction goes through the wider one. -/
def asNarrow? (T : Type) {G : Type} [Scalar T] [Scalar G] [Narrow T G] : ConfigValue → Option G
  | number true l => some (Scalar.ofLiteral l)
  | number false l => some (narrow (Scalar.ofLiteral l : T))
  | _ => none

/-- The value under a key, or the default if the key is missing. -/
def field {α : Type} (entries : List (String × ConfigValue)) (read? : ConfigValue → Option α)
    (key : String) (otherwise : α) : Except WrongType α :=
  match entries.lookup key with
  | none => .ok otherwise
  | some v =>
    match read? v with
    | some a => .ok a
    | none => .error ⟨key⟩

end ConfigValue

end Storyboard
