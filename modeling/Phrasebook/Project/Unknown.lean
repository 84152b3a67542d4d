import Phrasebook.Path

/-! Keys of a project's configuration that mean nothing, with a guess at what was meant: the known key that is the
fewest edits away. -/
namespace Phrasebook

namespace Text

variable {α : Type} [DecidableEq α]

/-- The distances from a word that is one letter longer, given those from the word itself.
`left` is the distance just found. -/
def nextDistances (letter : α) : List α → List Nat → Nat → List Nat
  | b :: target,diagonal :: up :: row,left =>
    let here := min (min (up + 1) (left + 1)) (diagonal + if letter = b then 0 else 1)
    here :: nextDistances letter target (up :: row) here
  | _,_,_ => []

/-- The distances from a word to every start of the target. -/
def distances (target word : List α) : List Nat :=
  word.foldl (fun row letter =>
    let first := row.headD 0 + 1
    first :: nextDistances letter target row first) (List.range (target.length + 1))

def distance (word target : List α) : Nat := (distances target word).getLastD 0

end Text

namespace Project

structure Unknown where
  key : String
  file : Path
  /-- the first line that mentions the key, counted from one -/
  line : Option Nat
  suggestion : Option String
deriving DecidableEq, Repr

namespace Unknown

def message (unknown : Unknown) : String :=
  "unknown config key '" ++ unknown.key ++ "' in " ++ unknown.file.display ++
    (unknown.line.elim "" fun line => ":" ++ toString line) ++
    (unknown.suggestion.elim "" fun key => " (did you mean '" ++ key ++ "'?)")

def occursIn (part : List Char) : List Char → Bool
  | [] => part.isEmpty
  | c :: rest => part.isPrefixOf (c :: rest) || occursIn part rest

def findLine? (text key : String) : Option Nat :=
  ((Text.lines text).findIdx? fun line => occursIn key.toList line.toList).map (· + 1)

def knownKeys : List String :=
  ["plugin","module_name","locales","output","lazy","default_locale","logging","default","modules"]

/-- Distance in octets of the written form. -/
def distanceTo (key known : String) : Nat :=
  Text.distance (Text.octets key) (Text.octets known)

/-- The nearest of the known keys, of several the first. -/
def nearest (key : String) : List String → Option (String × Nat)
  | [] => none
  | known :: rest =>
    let here := distanceTo key known
    match nearest key rest with
    | some (other,there) => if there < here then some (other,there) else some (known,here)
    | none => some (known,here)

/-- A known key at a distance of at most two. -/
def suggest? (key : String) : Option String :=
  ((nearest key knownKeys).filter (·.2 ≤ 2)).map (·.1)

/-- Of a key that holds dots, only what follows the last one counts. -/
def of (text : String) (file : Path) (written : String) : Unknown :=
  let key := (Text.split '.' written).getLastD ""
  ⟨key,file,findLine? text key,suggest? key⟩

end Unknown
end Project
end Phrasebook
