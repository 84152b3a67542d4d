import Phrasebook.Locale.Tree
import Phrasebook.Message
import Phrasebook.Sorted

/-! The union of the trees of several locales. A field counts the locales that have it
among those that have its group, and a message collects the placeholders of all. -/
namespace Phrasebook

inductive Shape where
  | empty
  | message (key : String) (count : Nat) (params : List String) (rest : Shape)
  | group (key : String) (count : Nat) (inner rest : Shape)
deriving DecidableEq, Inhabited, Repr

namespace Shape

def collect (params : List String) (names : List String) : List String :=
  names.foldl (fun all name => Sorted.add name all) params

/-- Counts a message under `key`; none where a group stands. -/
def addMessage? (key : String) (names : List String) : Shape → Option Shape
  | .empty => some (.message key 1 (collect [] names) .empty)
  | .message k count params rest =>
    match compare key k with
    | .lt => some (.message key 1 (collect [] names) (.message k count params rest))
    | .eq => some (.message k (count + 1) (collect params names) rest)
    | .gt => (addMessage? key names rest).map (.message k count params)
  | .group k count inner rest =>
    match compare key k with
    | .lt => some (.message key 1 (collect [] names) (.group k count inner rest))
    | .eq => none
    | .gt => (addMessage? key names rest).map (.group k count inner)

/-- The fields of the group under `key`, empty before the first one; none where a message stands. -/
def inner? (key : String) : Shape → Option Shape
  | .empty => some .empty
  | .message k _ _ rest => if key = k then none else inner? key rest
  | .group k _ inner rest => if key = k then some inner else inner? key rest

/-- Counts a group under `key` and sets its fields. -/
def putGroup (key : String) (fields : Shape) : Shape → Shape
  | .empty => .group key 1 fields .empty
  | .message k count params rest =>
    match compare key k with
    | .lt => .group key 1 fields (.message k count params rest)
    | _ => .message k count params (putGroup key fields rest)
  | .group k count inner rest =>
    match compare key k with
    | .lt => .group key 1 fields (.group k count inner rest)
    | .eq => .group k (count + 1) fields rest
    | .gt => .group k count inner (putGroup key fields rest)

/-- Adds one tree below the group at `path`; the error is the first path that is a message
here and a group there. -/
def merge (path : String) : Shape → Locale.Tree → Except String Shape
  | shape,.empty => .ok shape
  | shape,.message key text rest =>
    match shape.addMessage? key (Message.parameters text) with
    | some shape => merge path shape rest
    | none => .error (Locale.childPath path key)
  | shape,.group key inner rest =>
    match shape.inner? key with
    | none => .error (Locale.childPath path key)
    | some fields => do
      let fields ← merge (Locale.childPath path key) fields inner
      merge path (putGroup key fields shape) rest

structure Clash where
  locale : String
  path : String
deriving DecidableEq, Repr

/-- Adds the locales in order. -/
def mergeAll (shape : Shape) : List Locale.Entry → Except Clash Shape
  | [] => .ok shape
  | entry :: rest =>
    match merge "" shape entry.tree with
    | .ok shape => mergeAll shape rest
    | .error path => .error ⟨entry.name,path⟩

def ofEntries (entries : List Locale.Entry) : Except Clash Shape := mergeAll .empty entries

end Shape
end Phrasebook
