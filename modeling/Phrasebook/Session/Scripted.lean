import Phrasebook.Host.Memory
import Phrasebook.Session.Lifecycle

/-! Carrying out commands on hosts in memory. Collaborators follow scripts, so that they may issue
commands while another command is being carried out. -/
namespace Phrasebook

def MemoryHost.perform (host : MemoryHost) : HostCommand → Reply × MemoryHost
  | .insert path content => (.done,host.insert path content)
  | .createDirectory path => (.done,host.createDirectory path)
  | .removeDirectory path => (.done,host.removeDirectory path)
  | .removeFile path => (.done,host.removeFile path)
  | .setReadOnly path => (.done,host.setReadOnly path)
  | .refuseWatches on => (.done,{host with refusesWatches := on})
  | .limitWatches limit => (.done,{host with watchBudget := limit})
  | .refuseListing on => (.done,{host with refusesListing := on})
  | .setUnreadable path on => (.done,host.setUnreadable path on)
  | .file path => (.text (host.file? path),host)
  | .read path => (.text (host.read? path),host)
  | .write path content =>
    match host.write path content with
    | .ok host => (.flag true,host)
    | .error fault => (.hostFault fault,host)
  | .writes => (.paths host.writes,host)
  | .writeCount path => (.count (host.writeCount path),host)
  | .directoryExists path => (.flag (host.directoryExists path),host)
  | .list path =>
    match host.list path with
    | .ok files => (.paths files,host)
    | .error fault => (.hostFault fault,host)

namespace Environment

variable (env : Environment MemoryHost)

/-- Tells the subscriber of a watch that its file changed. -/
def fire (watch : Watch) (w : World MemoryHost) : Option (World MemoryHost) :=
  match watch.subscriber with
  | .session s => env.fileChanged s watch.path w
  | .recorder r => some (w.record (.changed r watch.path))

def fireAll : List Watch → World MemoryHost → Option (World MemoryHost)
  | [],w => some w
  | watch :: rest,w => do fireAll rest (← env.fire watch w)

/-- Fires the watches that are open on a path at the start, and counts them. -/
def notify (h : Nat) (path : Path) (w : World MemoryHost) : Option (Nat × World MemoryHost) := do
  let host := (w.host h).prune
  let watches := host.watchesOn path
  let w ← env.fireAll watches (w.setHost h host)
  some (watches.length,w)

def runReply {α : Type} (result : Except RunFault α) (reply : α → Reply) : Reply :=
  match result with
  | .ok a => reply a
  | .error fault => .runFault fault

def hostReply {α : Type} (result : Except HostFault α) (reply : α → Reply) : Reply :=
  match result with
  | .ok a => reply a
  | .error fault => .hostFault fault

/-- Carries out a command on a session, if somebody still holds it. -/
def onSession (s : Nat) (w : World MemoryHost)
    (f : World MemoryHost → Option (Reply × World MemoryHost)) : Option (Reply × World MemoryHost) :=
  if (w.session s).dropped then some (.done,w) else f w

omit env in
/-- Nothing happens to a session that nobody holds any more. -/
theorem onSession_eq_some {s : Nat} {w w' : World MemoryHost} {reply : Reply}
    {f : World MemoryHost → Option (Reply × World MemoryHost)}
    (run : onSession s w f = some (reply,w')) : w' = w ∨ f w = some (reply,w') := by
  rw [onSession] at run
  split at run
  · cases run; exact .inl rfl
  · exact .inr run

def perform (command : Command) (w : World MemoryHost) : Option (Reply × World MemoryHost) :=
  match command with
  | .host h command =>
    let (reply,state) := (w.host h).perform command
    some (reply,w.setHost h state)
  | .edit h path content => do
    let (_,w) ← env.notify h path (w.setHost h ((w.host h).insert path content))
    some (.done,w)
  | .notify h path => do
    let (count,w) ← env.notify h path w
    some (.count count,w)
  | .load h directory =>
    some (runReply (env.toolchain.load directory (w.host h)) fun entries =>
      .loaded (entries.map fun entry => (entry.name,entry.tree.messageCount)),w)
  | .render h config target => do
    let (result,w) ← env.render none h config target w
    some (runReply result fun (entries,source) => .rendered (entries.map (·.name)) source,w)
  | .generate h logger config => do
    let (result,w) ← env.produce none h (some logger) config w
    some (runReply result .report,w)
  | .rewatch r h files =>
    let (result,w) := w.rewatch (.recorder r) h files
    some (hostReply result .refreshed,w)
  | .unwatch r => some (.count (w.watches (.recorder r)).length,w.unwatch (.recorder r))
  | .dropRecorder r => some (.done,w.unwatch (.recorder r))
  | .watched r => some (.watching ((w.watches (.recorder r)).map (·.path)),w)
  | .hookState hook =>
    let state := w.hooks.get hook
    some (.hook state.hasResolver state.wrapCount,w)
  | .resolve hook query => do
    let (result,w) ← env.resolve hook query w
    some (hostReply result .answers,w)
  | .create s host hook logger options => onSession s w fun w => do
    some (.service s,← env.create s host hook logger options w)
  | .configure s options => onSession s w fun w => do
    let (adopted,w) ← env.configure s options w
    some (.flag adopted,w)
  | .regenerate s => onSession s w fun w => do some (.done,← env.regenerate s w)
  | .refresh s => onSession s w fun w => do
    let (result,w) ← env.refresh s w
    some (hostReply result .flag,w)
  | .dispose s => onSession s w fun w => do some (.done,← env.dispose s w)
  | .renewSink s => onSession s w fun w => some (.done,w.renewSink s)
  | .drop s => onSession s w fun w => do some (.done,← env.drop s w)

/-- Issues the commands of a script and records each reply. -/
def follow : Script → World MemoryHost → Option (World MemoryHost)
  | .done,w => some w
  | .issue command next,w => do
    let (reply,w) ← env.perform command w
    follow (next reply) (w.record (.nested reply))

end Environment

/-- The script that an entry sets off. -/
abbrev Behaviour := Entry → World MemoryHost → Script

/-- An environment whose collaborators behave as told. Scripts may set off scripts up to the given
depth; deeper ones give no result. -/
def Environment.scripted (tools : Toolchain) (behaviour : Behaviour) : Nat → Environment MemoryHost
  | 0 => ⟨tools,fun entry w =>
      match behaviour entry w with
      | .done => some w
      | .issue _ _ => none⟩
  | depth + 1 => ⟨tools,fun entry w =>
      (scripted tools behaviour depth).follow (behaviour entry w) w⟩

end Phrasebook
