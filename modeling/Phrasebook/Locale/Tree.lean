import Phrasebook.Path

/-! Locales. The file `dir/en-US.yaml` holds the locale `en-US`. Its messages are keyed and nested; the keys of a
group stand in the order of their characters, each once. -/
namespace Phrasebook.Locale

def fileExtension : String := "yaml"

def isFile (path : Path) : Bool := path.extension? = some (Text.octets fileExtension)

/-- The name of the locale that a file holds: its file name without the extension, if that is a text. -/
def nameOf? (path : Path) : Option String := (path.stem?.bind Text.ofOctets?).filter (!·.isEmpty)

/-- The names of the locales in a listing. -/
def names (files : List Path) : List String := files.filterMap nameOf?

inductive Tree where
  | empty
  | message (key text : String) (rest : Tree)
  | group (key : String) (inner rest : Tree)
deriving DecidableEq, Inhabited, Repr

inductive Node where
  | message (text : String)
  | group (tree : Tree)
deriving DecidableEq, Inhabited, Repr

namespace Tree

def put (key : String) : Node → Tree → Tree
  | .message text,rest => .message key text rest
  | .group inner,rest => .group key inner rest

def insert (key : String) (node : Node) : Tree → Tree
  | .empty => put key node .empty
  | .message k text rest =>
    match compare key k with
    | .lt => put key node (.message k text rest)
    | .eq => put key node rest
    | .gt => .message k text (insert key node rest)
  | .group k inner rest =>
    match compare key k with
    | .lt => put key node (.group k inner rest)
    | .eq => put key node rest
    | .gt => .group k inner (insert key node rest)

def entries : Tree → List (String × Node)
  | .empty => []
  | .message key text rest => (key,.message text) :: entries rest
  | .group key inner rest => (key,.group inner) :: entries rest

def get? (key : String) : Tree → Option Node
  | .empty => none
  | .message k text rest => if key = k then some (.message text) else get? key rest
  | .group k inner rest => if key = k then some (.group inner) else get? key rest

/-- The node reached by following keys one by one; a message has no children. -/
def follow? (tree : Tree) : List String → Option Node
  | [] => none
  | [key] => tree.get? key
  | key :: keys =>
    match tree.get? key with
    | some (.group inner) => inner.follow? keys
    | _ => none

/-- Follows a path whose keys are separated by dots. -/
def lookup? (tree : Tree) (dotted : String) : Option Node := tree.follow? (Text.split '.' dotted)

def size (tree : Tree) : Nat := tree.entries.length

def isEmpty (tree : Tree) : Bool := tree.entries.isEmpty

def messageCount : Tree → Nat
  | .empty => 0
  | .message _ _ rest => messageCount rest + 1
  | .group _ inner rest => messageCount inner + messageCount rest

end Tree

/-- One locale and its messages. -/
structure Entry where
  name : String
  tree : Tree
deriving DecidableEq, Inhabited, Repr

/-- The path of a key below the group at `path`; the top level has the empty path. -/
def childPath (path key : String) : String := if path.isEmpty then key else path ++ "." ++ key

end Phrasebook.Locale
