import Phrasebook.Path
import Phrasebook.Sorted

/-! A disk: files and directories in one tree, and a current directory where relative paths
start. Paths are walked step by step, and every step but the last must be a directory. -/
namespace Phrasebook

inductive DiskFault where
  | noEntry
  | busy
  | alreadyExists
  | notDirectory
  | isDirectory
  /-- what a file holds is not UTF-8 -/
  | notText
deriving DecidableEq, Repr

def DiskFault.message : DiskFault → String
  | noEntry => "No such file or directory (os error 2)"
  | busy => "Device or resource busy (os error 16)"
  | alreadyExists => "File exists (os error 17)"
  | notDirectory => "Not a directory (os error 20)"
  | isDirectory => "Is a directory (os error 21)"
  | notText => "stream did not contain valid UTF-8"

/-- The names from the root down to a file or directory. -/
abbrev Place := List Octets

inductive DiskNode where
  | directory
  /-- without a text if it holds something else than text -/
  | file (text : Option String)
deriving DecidableEq, Inhabited, Repr

structure Disk where
  nodes : List (Place × DiskNode) := []
  current : Place := []
deriving Inhabited, Repr

namespace Disk

instance : Ord Place := ⟨List.compareLex compare⟩

/-- The root is always there. -/
def node? (disk : Disk) (place : Place) : Option DiskNode :=
  if place.isEmpty then some .directory else Sorted.get? place disk.nodes

def put (place : Place) (node : DiskNode) (disk : Disk) : Disk :=
  {disk with nodes := Sorted.insert place node disk.nodes}

/-- Removes a file, or a directory and everything below it. -/
def remove (place : Place) (disk : Disk) : Disk :=
  {disk with nodes := disk.nodes.filter fun entry => !place.isPrefixOf entry.1}

/-- Creates the missing directories above a place. -/
def addParents (place : Place) (disk : Disk) : Disk :=
  (List.range place.length).foldl (fun disk n =>
    let parent := place.take n
    if (disk.node? parent).isSome then disk else disk.put parent .directory) disk

def add (place : Place) (node : DiskNode) (disk : Disk) : Disk := (disk.addParents place).put place node

/-- The names in a directory, in order. -/
def children (disk : Disk) (place : Place) : List (Octets × DiskNode) :=
  disk.nodes.filterMap fun (other,node) =>
    match other.getLast? with
    | some name => if other = place ++ [name] then some (name,node) else none
    | none => none

/-- The steps of a path as written. -/
def steps (path : Path) : List Octets := (Text.pieces Path.slash path.octets).filter (!·.isEmpty)

def start (disk : Disk) (path : Path) : Place := if path.isAbsolute then [] else disk.current

def walk (disk : Disk) : Place → List Octets → Except DiskFault Place
  | here,[] => .ok here
  | here,step :: rest =>
    if disk.node? here ≠ some .directory then .error .notDirectory
    else if step = [Path.dot] then walk disk here rest
    else if step = [Path.dot,Path.dot] then walk disk here.dropLast rest
    else if (disk.node? (here ++ [step])).isNone then .error .noEntry
    else walk disk (here ++ [step]) rest

def endsWithSlash (path : Path) : Bool := path.octets.getLast? = some Path.slash

/-- Where a path leads and what is there. Before a slash there must be a directory. -/
def find (disk : Disk) (path : Path) : Except DiskFault (Place × DiskNode) :=
  if path.isEmpty then .error .noEntry
  else
    match disk.walk (disk.start path) (steps path) with
    | .error fault => .error fault
    | .ok place =>
      match disk.node? place with
      | none => .error .noEntry
      | some .directory => .ok (place,.directory)
      | some (.file text) =>
        if endsWithSlash path then .error .notDirectory else .ok (place,.file text)

def isDirectory (disk : Disk) (path : Path) : Bool :=
  match disk.find path with
  | .ok (_,.directory) => true
  | _ => false

def isFile (disk : Disk) (path : Path) : Bool :=
  match disk.find path with
  | .ok (_,.file _) => true
  | _ => false

def read (disk : Disk) (path : Path) : Except DiskFault String :=
  match disk.find path with
  | .error fault => .error fault
  | .ok (_,.directory) => .error .isDirectory
  | .ok (_,.file none) => .error .notText
  | .ok (_,.file (some text)) => .ok text

/-- The absolute path of a place. -/
def pathOf (place : Place) : Path := ⟨Path.slash :: Text.joined Path.slash place⟩

/-- The place that the last step of a path names, whether or not anything is there. Without such a
step, or where it leads back, there is none. -/
def target (disk : Disk) (path : Path) : Except DiskFault (Option Place) :=
  match (steps path).getLast? with
  | none => .ok none
  | some name => do
    let parent ← disk.walk (disk.start path) (steps path).dropLast
    if disk.node? parent ≠ some .directory then .error .notDirectory
    else if name = [Path.dot] || name = [Path.dot,Path.dot] then .ok none
    else .ok (some (parent ++ [name]))

def makeDirectory (path : Path) (disk : Disk) : Except DiskFault Disk :=
  if path.isEmpty then .error .noEntry
  else
    match disk.target path with
    | .error fault => .error fault
    | .ok none => .error .alreadyExists
    | .ok (some place) =>
      if (disk.node? place).isSome then .error .alreadyExists else .ok (disk.put place .directory)

/-- Creates a directory and those above it, given from the inside out. -/
def makeDirectories : List Path → Disk → Except DiskFault Disk
  | [],_ => .error .noEntry
  | path :: above,disk =>
    if path.isEmpty then .ok disk
    else
      match disk.makeDirectory path with
      | .ok disk => .ok disk
      | .error .noEntry => do
        let disk ← makeDirectories above disk
        match disk.makeDirectory path with
        | .ok disk => .ok disk
        | .error fault => if disk.isDirectory path then .ok disk else .error fault
      | .error fault => if disk.isDirectory path then .ok disk else .error fault

/-- Puts a finished file in the place of whatever file is there. -/
def replace (path : Path) (text : String) (disk : Disk) : Except DiskFault Disk :=
  match disk.target path with
  | .error fault => .error fault
  | .ok none => .error .busy
  | .ok (some place) =>
    if endsWithSlash path then .error .notDirectory
    else if disk.node? place = some .directory then .error .isDirectory
    else .ok (disk.put place (.file (some text)))

end Disk
end Phrasebook
