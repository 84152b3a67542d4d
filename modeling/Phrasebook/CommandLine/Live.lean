import Phrasebook.CommandLine.Run

/-! A run that watches: what it does when the disk changes under it, and when it is stopped. -/
namespace Phrasebook.CommandLine.Live

/-- Refused watches are only warned about. -/
def warnOf (fault : HostFault) : Logging.Record :=
  ⟨.warn,Logging.partTarget ["commands","watch"],"failed to refresh locale watches",
    [("error",fault.message)]⟩

/-- Tells the session about a file, if it still watches it. -/
def tell (path : Path) (w : World DiskHost) : Option (World DiskHost) :=
  if ((w.session 0).watches.map (·.path)).contains path then environment.fileChanged 0 path w
  else some w

def tellAll : List Path → World DiskHost → Option (World DiskHost)
  | [],w => some w
  | path :: rest,w => do tellAll rest (← tell path w)

/-- The watched files that read otherwise on another disk. -/
def changed (live : Live) (disk : Disk) : List Path :=
  let before := (live.world.host 0).disk
  ((live.world.session 0).watches.map (·.path)).filter fun path => (before.read path).toOption ≠ (disk.read path).toOption

/-- Goes on with the disk as it is now: changed files first, then those that came or went. -/
def update (live : Live) (disk : Disk) : Option (List Output × Live) := do
  let w ← tellAll (live.changed disk)
    (live.world.setHost 0 {live.world.host 0 with disk := disk})
  let (result,w) ← environment.refresh 0 w
  let warnings := match result with
    | .error fault => (live.console.record? (warnOf fault)).toList
    | .ok _ => []
  some (live.console.trace "watch" w ++ warnings,{live with world := forget w})

/-- Ends a run that watches. -/
def stop (live : Live) : Outcome :=
  let shown := if live.console.json then [] else [Output.errLine "\nShutting down..."]
  (leave live.console "watch" shown live.world none).getD (.succeed shown (live.world.host 0).disk)

/-- The directories that a run looks into. -/
def places (arguments : Arguments) (disk : Disk) : List Path :=
  let importers := match arguments.command with
    | .resolve _ (some importer) => [importer.directory]
    | _ => []
  let project := match Located.find disk arguments.config with
    | .error _ => []
    | .ok located =>
      let options := located.project.plugin.options located.root
      located.root :: options.localesDirectory.toList ++ options.outputPath.toList.map Path.directory ++
        importers.map located.root.join
  Path.mk "." :: (arguments.config.map Path.directory).toList ++ project

end Phrasebook.CommandLine.Live
