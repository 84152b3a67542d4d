import Phrasebook.Locale.Tree
import Phrasebook.Yaml.Document

/-! Locale trees from YAML. Scalars become messages by their text, null the empty message;
tags do not count, except that a tagged key is refused. -/
namespace Phrasebook.Locale

inductive Fault where
  | syntaxFault
  | notMapping
  | list (path : String)
  | key (path : String)
deriving DecidableEq, Repr

namespace Fault

/-- The diagnosis of ill-formed YAML is not spelled out. -/
def message : Fault → String
  | syntaxFault => "<yaml>"
  | notMapping => "top level must be a mapping"
  | list path => "'" ++ path ++ "': lists are not supported"
  | key path => "'" ++ path ++ "': keys must be scalars"

end Fault

open Yaml (Value)

/-- Strings, numbers and booleans may be keys. -/
def keyText? : Value → Option String
  | .string text => some text
  | .number n => some n.text
  | .bool b => some (toString b)
  | _ => none

mutual

/-- The node at `path`; the first fault in document order is reported, a key before its value. -/
def node (path : String) : Value → Except Fault Node
  | .null => .ok (.message "")
  | .bool b => .ok (.message (toString b))
  | .number n => .ok (.message n.text)
  | .string text => .ok (.message text)
  | .sequence _ => .error (.list path)
  | .tagged _ value => node path value
  | .mapping entries => (group path .empty entries).map .group

def group (path : String) (tree : Tree) : List (Value × Value) → Except Fault Tree
  | [] => .ok tree
  | (key,value) :: rest =>
    match keyText? key with
    | none => .error (.key path)
    | some key => do
      let child ← node (childPath path key) value
      group path (tree.insert key child) rest

end

def isCollectible : Value → Bool
  | .mapping _ => true
  | .tagged _ _ => true
  | _ => false

def Tree.ofValue (value : Value) : Except Fault Tree :=
  match value with
  | .null => .ok .empty
  | value =>
    if isCollectible value then do
      match ← node "" value with
      | .group tree => .ok tree
      | .message _ => .error .notMapping
    else .error .notMapping

/-- The tree of a locale file's text. -/
def Tree.ofText (text : String) : Except Fault Tree :=
  match Value.ofText? text with
  | none => .error .syntaxFault
  | some value => Tree.ofValue value

end Phrasebook.Locale
