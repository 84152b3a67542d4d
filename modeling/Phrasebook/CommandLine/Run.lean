import Phrasebook.CommandLine.Arguments
import Phrasebook.CommandLine.Located
import Phrasebook.CommandLine.Usage
import Phrasebook.Session.Lifecycle

/-! One run of a command on a disk, up to its end or to the point from where it only watches. -/
namespace Phrasebook.CommandLine

/-- A run that watches until it is stopped. -/
structure Live where
  console : Console
  world : World DiskHost

inductive Progress where
  | over (code : Nat)
  | watching (live : Live)

/-- What a run has printed, the disk as it left it, and how it goes on. -/
structure Outcome where
  outputs : List Output
  disk : Disk
  progress : Progress

namespace Outcome

def succeed (outputs : List Output) (disk : Disk) : Outcome := ⟨outputs,disk,.over 0⟩

/-- The complaint comes last. -/
def fail (outputs : List Output) (disk : Disk) (complaint : Complaint) : Outcome :=
  ⟨outputs ++ [.err complaint.text],disk,.over 1⟩

/-- What is printed about a panic is not spelled out. -/
def panicked (outputs : List Output) (disk : Disk) : Outcome := ⟨outputs,disk,.over 101⟩

end Outcome

/-- Nobody responds to anything, so one regeneration never follows upon another. -/
def environment : Environment DiskHost := ⟨Toolchain.standard,fun _ w => some w⟩

/-- One session on a disk, and a hook that resolves modules on it. -/
def world (resolver : Resolver) (disk : Disk) : World DiskHost where
  hosts := ⟨[{disk := disk}]⟩
  hooks := ⟨[{baseline := some resolver}]⟩
  sessions := ⟨[{sink := some 0}]⟩
  sinks := 1

def forget (w : World DiskHost) : World DiskHost := {w with trace := []}

def ofRunFault (fault : RunFault) : Complaint :=
  ⟨fault.message,(fault.cause?.map HostFault.message).toList,false⟩

section Commands

variable (located : Located) (console : Console) (disk : Disk)

def generated (report : Report) : Output :=
  if console.json then
    console.event "generate" (.regenerated report.output report.locales.length report.digest.short)
  else .outLine ("✓ Wrote " ++ report.output.display ++ " (" ++ String.intercalate ", " report.locales ++
    ") [" ++ report.digest.short ++ "]")

/-- A module that carries translations is never written, only printed. -/
def generate (target : Target) (toStdout : Bool) : Option Outcome :=
  match located.check disk with
  | .error rejection => some (.fail [] disk {message := (Failure.rejected rejection).message})
  | .ok config =>
    if toStdout || target = .runtime then do
      match ← environment.render none 0 config target (world console.resolver disk) with
      | (.error fault,_) => some (.fail [] disk (ofRunFault fault))
      | (.ok (_,source),_) => some (.succeed [.out source] disk)
    else do
      match ← environment.produce none 0 (some 0) config (world console.resolver disk) with
      | (.error fault,w) =>
        let complaint := ofRunFault fault
        some (.fail (console.trace "generate" w) disk {
          message := "failed to generate " ++ config.outputPath.display
          causes := complaint.message :: complaint.causes })
      | (.ok report,w) =>
        some (.succeed (console.trace "generate" w ++ [generated console report]) (w.host 0).disk)

def accepted (config : Config) (locales : List String) : Output :=
  if console.json then
    .outLine (Json.object [
      ("event",.string "check"),("status",.string "ok"),("module_name",.string config.moduleName),
      ("locales_dir",.string config.localesDirectory.display),("output",.string config.outputPath.display),
      ("mode",.string config.mode.label),("locales",.array (locales.map .string))]).text
  else .out (Text.unlines [
    "✓ Options valid (" ++ located.file.display ++ ")",
    "  module:  " ++ config.moduleName,
    "  locales: " ++ config.localesDirectory.display ++ " (" ++ String.intercalate ", " locales ++ ")",
    "  output:  " ++ config.outputPath.display,
    "  mode:    " ++ config.mode.label])

def rejected (rejection : Rejection) : List Output :=
  if console.json then
    [.outLine (Json.object [
      ("event",.string "check"),("status",.string "rejected"),
      ("reason",.string rejection.message)]).text]
  else []

def check : Outcome :=
  match located.check disk with
  | .error rejection => .fail (rejected console rejection) disk
      {message := "plugin would stay inactive: " ++ rejection.message}
  | .ok config =>
    match DiskHost.listFiles config.localesDirectory {disk := disk} with
    | .error fault => .fail [] disk {message := fault.message}
    | .ok files => .succeed [accepted located console config (Locale.names files)] disk

/-- A session as an editor would start it. -/
def start : Option (World DiskHost) :=
  environment.create 0 (some 0) 0 0 located.options (world console.resolver disk)

/-- Disposes the session, which has its last say before a complaint. -/
def leave (command : String) (shown : List Output) (w : World DiskHost) (complaint : Option Complaint) :
    Option Outcome := do
  let w ← environment.dispose 0 w
  let outputs := shown ++ console.trace command w
  match complaint with
  | some complaint => some (.fail outputs (w.host 0).disk complaint)
  | none => some (.succeed outputs (w.host 0).disk)

def inactive : Complaint := {message := "plugin options rejected; see \x60localetypes check\x60"}

def answer (specifier : String) (resolution : Option Resolution) : Output :=
  if console.json then
    .outLine (Json.object [
      ("event",.string "resolution"),("command",.string "resolve"),("specifier",.string specifier),
      ("resolved_file_name",(resolution.map fun found => Json.string found.path.display).getD .null),
      ("is_external_library_import",(resolution.map fun found => Json.bool found.external).getD .null)]).text
  else .outLine (specifier ++ " -> " ++
    match resolution with
    | some found => found.path.display ++ if found.external then " (external)" else ""
    | none => "unresolved")

/-- A relative importer stands in the project. -/
def resolve (specifier : String) (importer : Option Path) : Option Outcome := do
  let w ← start located console disk
  if (w.session 0).phase = .uninitialized then leave console "resolve" [] w (some inactive)
  else
    let file := (importer.map located.root.join).getD located.entryFile
    match ← environment.resolve 0 ⟨[specifier],file,none⟩ w with
    | (.error fault,w) => leave console "resolve" [] w (some {message := fault.message})
    | (.ok answers,w) =>
      let shown := console.trace "resolve" w ++ [answer console specifier answers.head?.join]
      leave console "resolve" shown (forget w) none

def banner (config : Config) : List Output :=
  if console.json then []
  else [.errLine ("Watching " ++ config.localesDirectory.display),.errLine "Press Ctrl+C to stop\n"]

def watch : Option Outcome := do
  let w ← start located console disk
  match (w.session 0).config with
  | none => leave console "watch" [] w (some inactive)
  | some config =>
    if (w.session 0).phase ≠ .active then
      leave console "watch" [] w (some {message := "module resolution could not be hooked"})
    else
      let shown := console.trace "watch" w ++ banner console config
      match ← environment.resolve 0 ⟨[config.moduleName],located.entryFile,none⟩ (forget w) with
      | (.error fault,w) => leave console "watch" shown w (some {message := fault.message})
      | (.ok _,w) =>
        some ⟨shown ++ console.trace "watch" w,(w.host 0).disk,.watching ⟨console,forget w⟩⟩

def perform : Command → Option Outcome
  | .generate target toStdout => generate located console disk target toStdout
  | .check => some (check located console disk)
  | .resolve specifier importer => resolve located console disk specifier importer
  | .watch => watch located console disk

end Commands

def refuse (disk : Disk) : Stop → Outcome
  | .usage => ⟨[.err refusal],disk,.over 2⟩
  | .help => .succeed [.out help] disk
  | .version => .succeed [.outLine version] disk

/-- Runs the program. A filter from the environment takes the place of the configured one. -/
def run (arguments : List String) (filter : Option String) (clock : Clock) (disk : Disk) : Outcome :=
  match Arguments.parse arguments with
  | .error stop => refuse disk stop
  | .ok arguments =>
    match Located.find disk arguments.config with
    | .error complaint => .fail [] disk complaint
    | .ok located =>
      let filter := filter.getD (located.project.logging.filter arguments.detail)
      let console : Console :=
        ⟨arguments.json,clock,Logging.Filter.ofText filter,Resolution.onDisk disk⟩
      let opening := (Logging.Filter.complaints filter).map Output.errLine
      match located.unknown.mapM (warning? arguments.json) with
      | none => .panicked opening disk
      | some warnings =>
        let outcome := (perform located console disk arguments.command).getD (.succeed [] disk)
        {outcome with outputs := opening ++ warnings ++ outcome.outputs}

end Phrasebook.CommandLine
