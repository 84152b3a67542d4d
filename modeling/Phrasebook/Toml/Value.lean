import Phrasebook.Keyed
import Phrasebook.Toml.Moment

/-! TOML values, and how keys and headers build tables. A table keeps its keys in the order in
which they first appear. -/
namespace Phrasebook.Toml

/-- How a table came to be. It decides what may still be added to the table. -/
inductive Origin where
  /-- under a header of its own -/
  | header
  /-- on the way to a header -/
  | implied
  /-- by a dotted key -/
  | dotted
  /-- between braces, and complete -/
  | braced
deriving DecidableEq, Repr

inductive Value where
  | string (text : String)
  | bool (value : Bool)
  | number (text : String)
  | moment (moment : Moment)
  | array (items : List Value)
  | table (origin : Origin) (fields : List (String × Value))
  /-- an array whose elements have headers of their own -/
  | tables (elements : List Value)
deriving Inhabited, Repr

namespace Value

/-- The key under which a moment, seen as a table, holds its text. -/
def momentKey : String := "$__toml_private_datetime"

def fields? : Value → Option (List (String × Value))
  | table _ fields => some fields
  | moment m => some [(momentKey,.string m.text)]
  | _ => none

def items? : Value → Option (List Value)
  | array items => some items
  | tables elements => some elements
  | _ => none

/-- A table's fields, or the items of an array under the keys at their positions. -/
def named? (keys : List String) (value : Value) : Option (List (String × Value)) :=
  match value.items? with
  | some items => some (keys.zip items)
  | none => value.fields?

def string? : Value → Option String
  | string text => some text
  | _ => none

def bool? : Value → Option Bool
  | bool value => some value
  | _ => none

end Value

/-- Changes the fields of the table at the end of a path. Tables that are missing on the way are
made; an array of tables stands for its last element. A dotted key may not enter a table
that has a header. -/
def update (dotted : Bool) (change : Origin → List (String × Value) → Option (List (String × Value))) :
    List String → Origin → List (String × Value) → Option (List (String × Value))
  | [],origin,fields => change origin fields
  | key :: path,_,fields =>
    match Keyed.get? key fields with
    | none => do
      let origin := if dotted then .dotted else .implied
      let inner ← update dotted change path origin []
      some (Keyed.set key (.table origin inner) fields)
    | some (.table origin inner) =>
      if origin = .braced || (dotted && origin = .header) then none
      else do
        let inner ← update dotted change path origin inner
        some (Keyed.set key (.table origin inner) fields)
    | some (.tables elements) =>
      match elements.getLast? with
      | some (.table origin inner) => do
        let inner ← update dotted change path origin inner
        some (Keyed.set key (.tables (elements.dropLast ++ [.table origin inner])) fields)
      | _ => none
    | some _ => none

/-- Gives a new key a value. -/
def assign (path : List String) (key : String) (value : Value) :
    Origin → List (String × Value) → Option (List (String × Value)) :=
  update true (fun origin fields =>
    if !path.isEmpty && origin ≠ .dotted then none
    else if (Keyed.get? key fields).isSome then none
    else some (Keyed.set key value fields)) path

/-- Opens the table of a header, which may have been implied before. -/
def openTable (path : List String) (key : String) :
    List (String × Value) → Option (List (String × Value)) :=
  update false (fun _ fields =>
    match Keyed.get? key fields with
    | none => some (Keyed.set key (.table .header []) fields)
    | some (.table .implied inner) => some (Keyed.set key (.table .header inner) fields)
    | some _ => none) path .header

/-- Appends an element to an array of tables. -/
def openElement (path : List String) (key : String) :
    List (String × Value) → Option (List (String × Value)) :=
  update false (fun _ fields =>
    match Keyed.get? key fields with
    | none => some (Keyed.set key (.tables [.table .header []]) fields)
    | some (.tables elements) => some (Keyed.set key (.tables (elements ++ [.table .header []])) fields)
    | some _ => none) path .header

end Phrasebook.Toml
