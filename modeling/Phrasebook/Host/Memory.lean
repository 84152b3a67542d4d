import Phrasebook.Host
import Phrasebook.Locale.Tree
import Phrasebook.Sorted

/-! A host that keeps files in memory and tells subscribers of a change only when asked to.
Every path counts by its components. It records writes and counts watches, and any of its
capabilities can be made to fail. -/
namespace Phrasebook

/-- A watch that was opened, and whether it still is. -/
structure Watch where
  id : WatchId
  path : Path
  subscriber : Subscriber
  isOpen : Bool := true
deriving DecidableEq, Repr

structure MemoryHost where
  files : List (Path × String) := []
  directories : List Path := []
  readOnly : List Path := []
  /-- in opening order; closed ones are left until the next pruning -/
  slots : List Watch := []
  /-- every path written, in order -/
  writes : List Path := []
  opened : Nat := 0
  closed : Nat := 0
  refusesWatches : Bool := false
  /-- how many more watches may be opened -/
  watchBudget : Option Nat := none
  refusesListing : Bool := false
  unreadable : List Path := []
deriving Inhabited, Repr

namespace MemoryHost

def file? (host : MemoryHost) (path : Path) : Option String := Sorted.get? path host.files

def insert (host : MemoryHost) (path : Path) (content : String) : MemoryHost :=
  {host with files := Sorted.insert path content host.files}

def createDirectory (host : MemoryHost) (path : Path) : MemoryHost :=
  {host with directories := Sorted.add path host.directories}

/-- Removes a directory and everything below it. -/
def removeDirectory (host : MemoryHost) (path : Path) : MemoryHost :=
  {host with
    files := host.files.filter fun file => !file.1.startsWith path,
    directories := host.directories.filter fun directory => !directory.startsWith path}

def removeFile (host : MemoryHost) (path : Path) : MemoryHost :=
  {host with files := Sorted.erase path host.files}

def setReadOnly (host : MemoryHost) (path : Path) : MemoryHost :=
  {host with readOnly := Sorted.add path host.readOnly}

def setUnreadable (host : MemoryHost) (path : Path) (on : Bool) : MemoryHost :=
  {host with unreadable :=
    if on then Sorted.add path host.unreadable else host.unreadable.filter fun other => !other.same path}

/-- The open watches in opening order. -/
def watches (host : MemoryHost) : List Watch := host.slots.filter (·.isOpen)

/-- Forgets the closed watches. -/
def prune (host : MemoryHost) : MemoryHost := {host with slots := host.watches}

/-- The open watches on a path, in opening order. -/
def watchesOn (host : MemoryHost) (path : Path) : List Watch :=
  host.watches.filter fun watch => watch.path.same path

def writeCount (host : MemoryHost) (path : Path) : Nat :=
  host.writes.countP fun written => written.same path

/-- A directory exists if it was created or holds a file, itself or further down. -/
def directoryExists (path : Path) (host : MemoryHost) : Bool :=
  host.directories.any (·.startsWith path) ||
  host.files.any fun file => file.1.parent?.any (·.startsWith path)

def isLocaleFileOf (directory file : Path) : Bool :=
  file.parent?.any (·.same directory) && Locale.isFile file

def list (path : Path) (host : MemoryHost) : Except HostFault (List Path) :=
  if host.refusesListing then .error (.listing path "listing disabled")
  else if host.directoryExists path then
    .ok ((host.files.map (·.1)).filter (isLocaleFileOf path))
  else .error (.listing path "no such directory")

def read? (path : Path) (host : MemoryHost) : Option String :=
  if host.unreadable.any (·.same path) then none else host.file? path

def write (path : Path) (content : String) (host : MemoryHost) : Except HostFault MemoryHost :=
  if host.readOnly.any (·.same path) then .error (.write path "read-only file")
  else .ok {host.insert path content with writes := host.writes ++ [path]}

/-- Takes one from the watch budget, if there is one. -/
def spend? : Option Nat → Option (Option Nat)
  | none => some none
  | some 0 => none
  | some (n + 1) => some (some n)

def watch (path : Path) (subscriber : Subscriber) (host : MemoryHost) :
    Except HostFault (WatchId × MemoryHost) :=
  match spend? host.watchBudget with
  | none => .error (.watch path "out of watches")
  | some budget =>
    if host.refusesWatches then .error (.watch path "watch limit reached")
    else .ok (host.opened,
      {host with
        slots := host.watches ++ [{id := host.opened,path := path,subscriber := subscriber}],
        opened := host.opened + 1,
        watchBudget := budget})

def close (id : WatchId) (host : MemoryHost) : MemoryHost :=
  if host.watches.any (·.id = id) then
    {host with
      slots := host.slots.map fun watch => if watch.id = id then {watch with isOpen := false} else watch,
      closed := host.closed + 1}
  else host

instance : Host MemoryHost := ⟨list,directoryExists,read?,write,watch,close⟩

end MemoryHost
end Phrasebook
