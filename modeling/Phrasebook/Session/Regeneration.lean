import Phrasebook.Generation.Modules
import Phrasebook.Locale.Reader
import Phrasebook.Session.World

/-! Regeneration: list the locale files, read and parse each, generate, write. Nothing is
written unless everything before succeeded. -/
namespace Phrasebook

namespace Toolchain

def parseYaml (text : String) : Except String Locale.Tree :=
  match Locale.Tree.ofText text with
  | .ok tree => .ok tree
  | .error fault => .error fault.message

def generateTypes (entries : List Locale.Entry) (target : Target) (mode : Mode) : Except String Artifact :=
  match Generation.generate entries target mode with
  | .ok artifact => .ok artifact
  | .error fault => .error fault.message

/-- What sessions use unless they are given something else. -/
def standard : Toolchain := ⟨parseYaml,generateTypes⟩

end Toolchain

variable {σ : Type} [Inhabited σ] [Host σ]

namespace Toolchain

def loadFile (tools : Toolchain) (host : σ) (path : Path) : Except RunFault Locale.Entry :=
  match Locale.nameOf? path with
  | none => .error (.illFormed path "file name has no usable stem")
  | some name =>
    match Host.read? path host with
    | none => .error (.unreadable path)
    | some text =>
      match tools.parse text with
      | .error cause => .error (.illFormed path cause)
      | .ok tree => .ok ⟨name,tree⟩

/-- Loads files in order up to the first fault. -/
def loadFiles (tools : Toolchain) (host : σ) : List Path → Except RunFault (List Locale.Entry)
  | [] => .ok []
  | path :: rest => do
    let entry ← tools.loadFile host path
    let entries ← loadFiles tools host rest
    .ok (entry :: entries)

/-- The locales of a directory, in listing order. -/
def load (tools : Toolchain) (directory : Path) (host : σ) : Except RunFault (List Locale.Entry) :=
  match Host.list directory host with
  | .error fault => .error (.listing fault)
  | .ok files => tools.loadFiles host files

end Toolchain

namespace Environment

variable (env : Environment σ)

/-- The generator of a session can be heard when it is called. -/
def announceCall (generator : Option Nat) (w : World σ) : Option (World σ) :=
  match generator with
  | none => some w
  | some s =>
    let w := w.modify s fun session => {session with generations := session.generations + 1}
    env.announce (.generating s (w.session s).generations) w

/-- The locales and the text generated from them. -/
def render (generator : Option Nat) (h : Nat) (config : Config) (target : Target) (w : World σ) :
    Option (Except RunFault (List Locale.Entry × String) × World σ) :=
  match env.toolchain.load config.localesDirectory (w.host h) with
  | .error fault => some (.error fault,w)
  | .ok entries => do
    let w ← env.announceCall generator w
    match env.toolchain.generate entries target config.mode with
    | .error cause => some (.error (.generator cause),w)
    | .ok artifact => some (.ok (entries,artifact.primary),w)

/-- Writes what was generated, if anything was. -/
def save (h : Nat) (output : Path) (rendered : Except RunFault (List Locale.Entry × String)) (w : World σ) :
    Except RunFault Report × World σ :=
  match rendered with
  | .error fault => (.error fault,w)
  | .ok (entries,source) =>
    match Host.write output source (w.host h) with
    | .error fault => (.error (.write fault),w)
    | .ok state => (.ok ⟨output,entries.map (·.name),Digest.ofText source⟩,w.setHost h state)

/-- One run from listing to writing, told to a logger. -/
def produce (generator : Option Nat) (h : Nat) (logger : Option Nat) (config : Config) (w : World σ) :
    Option (Except RunFault Report × World σ) := do
  let w ← env.log logger ("write file: " ++ config.outputPath.display) w
  let (rendered,w) ← env.render generator h config .types w
  match save h config.outputPath rendered w with
  | (.ok report,w) => do
    let w ← env.log logger ("write file succeed: " ++ config.outputPath.display) w
    some (.ok report,w.record (.noted (.regenerated report)))
  | (.error fault,w) => do
    let w ← env.log logger ("write file failed: " ++ fault.message) w
    some (.error fault,w)

/-- One run of a session. -/
def runOnce (s : Nat) (w : World σ) : Option (World σ) :=
  match (w.session s).context? with
  | none => some w
  | some context => do
    let (result,w) ← env.produce (some s) context.host context.logger context.config
      (w.start s context.config)
    match result with
    | .ok report => do
      let w ← env.emit s (.regenerated report.output report.locales.length report.digest.short) w
      some (w.finish s (.written report))
    | .error fault => do
      let w ← env.emit s (.regenerationFailed fault.message) w
      some (w.finish s (.failed fault.message))

/-- Runs as long as there are requests. -/
def drain (env : Environment σ) (s : Nat) (w : World σ) : Option (World σ) :=
  if (w.session s).requested then do env |>.drain s (← env.runOnce s (w.heed s))
  else some w
partial_fixpoint

/-- Drains the requests unless a run is in flight, and again if there are new ones by the time the
lock is free. -/
def attempt (env : Environment σ) (s : Nat) (w : World σ) : Option (World σ) :=
  if (w.session s).inFlight then some w
  else do
    let w := (← env.drain s (w.lock s)).unlock s
    if (w.session s).requested then env |>.attempt s w else some w
partial_fixpoint

/-- Requests a regeneration. A request during a run is folded into one follow-up run. -/
def regenerate (s : Nat) (w : World σ) : Option (World σ) := env.attempt s (w.request s)

/-- While a run is in flight, a request is only noted. -/
theorem regenerate_of_inFlight {s : Nat} {w : World σ} (busy : (w.session s).inFlight = true) :
    env.regenerate s w = some (w.request s) := by
  rw [regenerate,attempt,if_pos (by simpa [World.request] using busy)]

/-- One run answers a request, unless there is another request by its end. -/
theorem regenerate_once {s : Nat} {w v : World σ} (idle : (w.session s).inFlight = false)
    (run : env.runOnce s (((w.request s).lock s).heed s) = some v) (settled : (v.session s).requested = false) :
    env.regenerate s w = some (v.unlock s) := by
  have drained : env.drain s ((w.request s).lock s) = some v := by
    rw [drain,if_pos (by simp [World.lock,World.request]),run]
    change env.drain s v = some v
    rw [drain,settled]
    rfl
  rw [regenerate,attempt,if_neg (by simp [World.request,idle]),drained]
  simp [World.unlock,settled]

end Environment
end Phrasebook
