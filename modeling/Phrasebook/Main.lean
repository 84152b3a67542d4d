import Phrasebook.CommandLine.Live
import Std.Async.Signal

/-! The program. It takes in the directories that a run looks into, carries the run out, writes
the files that the run wrote and prints; while it watches, it does so again and again. -/
namespace Phrasebook.Program

open CommandLine

/-- Files of other kinds are never read, it only counts that they are there. -/
def isRead (name : String) : Bool := name.endsWith ".yaml" || name.endsWith ".toml" || name.endsWith ".json"

def readNode (file : String) : IO DiskNode := do
  try return .file (some (← IO.FS.readFile file))
  catch _ => return .file none

/-- What stands in a directory, and below it if wanted. Links to directories are not followed. -/
partial def list (deep : Bool) (directory : String) (place : Place) : IO (List (Place × DiskNode)) := do
  let entries ← try (← IO.FS.realPath directory).readDir catch _ => pure #[]
  let mut nodes := []
  for entry in entries do
    let here := place ++ [Text.octets entry.fileName]
    let path := entry.path.toString
    if !(← entry.path.isDir) then
      let node ← if isRead entry.fileName then readNode path else pure (.file none)
      nodes := (here,node) :: nodes
    else if (← entry.path.symlinkMetadata).type matches .dir then
      nodes := (here,.directory) :: nodes
      if deep || entry.fileName = "node_modules" then nodes := (← list true path here) ++ nodes
  return nodes

/-- A directory with everything below it, and what stands in those above. -/
def take (directory : Path) : IO (List (Place × DiskNode)) := do
  let real ← try pure (← IO.FS.realPath directory.display).toString catch _ => return []
  let place := Disk.steps ⟨real⟩
  let mut nodes ← list true real place
  for n in List.range place.length do
    let above := place.take n
    nodes := nodes ++ (above ++ [place.getD n ""],.directory) :: (← list false (Disk.pathOf above).display above)
  return nodes

/-- Nodes are put from the last to the first, so that each goes to the front. -/
def takeAll (directories : List Path) : IO Disk := do
  let nodes := (← directories.mapM take).flatten
  let current := Disk.steps ⟨(← IO.currentDir).toString⟩
  let ordered := nodes.mergeSort fun a b => (compare b.1 a.1).isLE
  return ordered.foldl (fun disk (place,node) => Disk.put place node disk) {current := current}

/-- The disk as far as a run looks at it. The configuration decides what else that is. -/
def takeFor (arguments : List String) : IO Disk := do
  match Arguments.parse arguments with
  | .error _ => return {}
  | .ok arguments => takeAll (Live.places arguments (← takeAll (Live.places arguments {})))

/-- Writes a file beside its place and then moves it there. -/
def save (place : Place) (text : String) : IO Unit := do
  let file := (Disk.pathOf place).display
  IO.FS.createDirAll (Disk.pathOf place.dropLast).display
  IO.FS.writeFile (file ++ ".new") text
  IO.FS.rename (file ++ ".new") file

def saveAll (before after : Disk) : IO Unit := do
  for (place,node) in after.nodes do
    match node with
    | .file (some text) => if before.node? place ≠ some node then save place text
    | _ => pure ()

def print (outputs : List Output) : IO Unit := do
  let out ← IO.getStdout
  let err ← IO.getStderr
  for output in outputs do
    out.putStr output.outText
    err.putStr output.errText
  out.flush
  err.flush

def now : IO Clock := do
  let time ← Std.Time.PlainTime.now
  return ⟨time.format "HH:mm:ss.SSS",time.format "HH:mm:ss"⟩

/-- Looks at the disk twice a second until the run is interrupted. -/
partial def follow (arguments : List String) (interrupt : Std.Async.AsyncTask Int) (live : Live) : IO Unit := do
  IO.sleep 500
  let disk ← takeFor arguments
  let live := {live with console := {live.console with clock := ← now}}
  if ← IO.hasFinished interrupt then print live.stop.outputs
  else
    match live.update disk with
    | none => follow arguments interrupt live
    | some (outputs,live) =>
      print outputs
      saveAll disk (live.world.host 0).disk
      follow arguments interrupt live

end Phrasebook.Program

open Phrasebook Phrasebook.Program in
def main (arguments : List String) : IO UInt32 := do
  let disk ← takeFor arguments
  let outcome := CommandLine.run arguments (← IO.getEnv "RUST_LOG") (← now) disk
  print outcome.outputs
  saveAll disk outcome.disk
  match outcome.progress with
  | .over code => return code.toUInt32
  | .watching live =>
    let waiter ← Std.Async.Signal.Waiter.mk .sigint false
    follow arguments (← waiter.wait) live
    return 0
