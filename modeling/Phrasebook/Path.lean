import Phrasebook.Text.Octets
import Phrasebook.Text.Pieces

/-! Slash-separated paths. A path keeps the octets it was written with, which need not be a text; where
paths are compared, their components are: repeated and trailing slashes and inner `.` do not count,
a leading `.` and every `..` do. -/
namespace Phrasebook

structure Path where
  octets : Octets
deriving DecidableEq, Inhabited, Repr

def Path.slash : UInt8 := 0x2f

def Path.dot : UInt8 := 0x2e

inductive Component where
  | root
  | here
  | up
  | name (octets : Octets)
deriving DecidableEq, Inhabited, Repr

namespace Component

def rank : Component → Nat
  | root => 0
  | here => 1
  | up => 2
  | name _ => 3

def label : Component → Octets
  | name octets => octets
  | _ => []

instance : Ord Component := ⟨compareLex (compareOn rank) (compareOn label)⟩

/-- Pieces that stand for no step: the empty one and `.`. -/
def idle (piece : Octets) : Bool := piece = [] || piece = [Path.dot]

def ofPiece? (piece : Octets) : Option Component :=
  if idle piece then none
  else if piece = [Path.dot,Path.dot] then some up
  else some (name piece)

end Component

namespace Path

/-- What stands before the first slash-separated step. -/
inductive Lead where
  | bare
  | root
  | here
deriving DecidableEq, Repr

def Lead.components : Lead → List Component
  | bare => []
  | root => [.root]
  | here => [.here]

def isEmpty (path : Path) : Bool := path.octets.isEmpty

/-- The text that a path is, if it is one. -/
def text? (path : Path) : Option String := Text.ofOctets? path.octets

/-- A path as people see it. -/
def display (path : Path) : String := Text.display path.octets

theorem text?_eq_some_iff {path : Path} {text : String} : path.text? = some text ↔ path = ⟨text⟩ := by
  rw [text?,Text.ofOctets?_eq_some_iff,mk.injEq]

@[simp] theorem text?_mk (text : String) : (mk text).text? = some text := text?_eq_some_iff.mpr rfl

theorem isSome_text?_iff {path : Path} : path.text?.isSome ↔ ∃ text : String, path = ⟨text⟩ := by
  simp only [Option.isSome_iff_exists,text?_eq_some_iff]

/-- The lead of a path and the pieces after it. -/
def cut (path : Path) : Lead × List Octets :=
  match Text.pieces slash path.octets with
  | [[]] => (.bare,[])
  | [] :: rest => (.root,rest)
  | first :: rest => if first = [dot] then (.here,rest) else (.bare,first :: rest)
  | [] => (.bare,[])

def assemble : Lead → List Octets → Path
  | .bare,steps => ⟨Text.joined slash steps⟩
  | .root,steps => ⟨slash :: Text.joined slash steps⟩
  | .here,[] => ⟨"."⟩
  | .here,steps => ⟨dot :: slash :: Text.joined slash steps⟩

def components (path : Path) : List Component :=
  path.cut.1.components ++ path.cut.2.filterMap Component.ofPiece?

instance : Ord Path := ⟨fun a b => List.compareLex compare a.components b.components⟩

/-- Two spellings of one path. -/
def same (a b : Path) : Bool := a.components = b.components

def isAbsolute (path : Path) : Bool := path.cut.1 = .root

/-- The path without its last step; a root and the empty path have no parent. -/
def parent? (path : Path) : Option Path :=
  match path.cut.2.reverse.dropWhile Component.idle with
  | _ :: rest => some (assemble path.cut.1 (rest.dropWhile Component.idle).reverse)
  | [] => if path.cut.1 = .here then some ⟨""⟩ else none

/-- A path, its parent, the parent of that and so on. -/
def ancestorsWithin : Nat → Path → List Path
  | 0,path => [path]
  | n + 1,path => path :: (path.parent?.map (ancestorsWithin n)).getD []

def ancestors (path : Path) : List Path := ancestorsWithin path.octets.length path

/-- The parent directory; a lone name stands in the current one. -/
def directory (path : Path) : Path := (path.parent?.filter (!·.isEmpty)).getD ⟨"."⟩

/-- An absolute right side replaces the left; else one slash stands between them. -/
def join (base tail : Path) : Path :=
  if tail.isAbsolute then tail
  else if base.isEmpty || base.octets.getLast? = some slash then ⟨base.octets ++ tail.octets⟩
  else ⟨base.octets ++ slash :: tail.octets⟩

def startsWith (path base : Path) : Bool := base.components.isPrefixOf path.components

def fileName? (path : Path) : Option Octets :=
  match path.components.getLast? with
  | some (.name octets) => some octets
  | _ => none

/-- What stands before and after the last dot. -/
def lastDot : Octets → Option (Octets × Octets)
  | [] => none
  | octet :: rest =>
    match lastDot rest with
    | some (stem,ext) => some (octet :: stem,ext)
    | none => if octet = dot then some ([],rest) else none

/-- A name that only starts with a dot has no extension. -/
def splitName (name : Octets) : Octets × Option Octets :=
  match lastDot name with
  | none => (name,none)
  | some ([],_) => (name,none)
  | some (stem,ext) => (stem,some ext)

def stem? (path : Path) : Option Octets := path.fileName?.map fun name => (splitName name).1

def extension? (path : Path) : Option Octets := path.fileName?.bind fun name => (splitName name).2

end Path
end Phrasebook
