import Phrasebook.Session.Interception

/-! The life of a session: options are adopted or rejected, resolution is hooked once, disposal
is for good. -/
namespace Phrasebook.Environment

variable {σ : Type} [Inhabited σ] [Host σ] (env : Environment σ)

/-- Lays the session over the resolver of its hook, unless that was tried before. -/
def install (s : Nat) (w : World σ) : Option (World σ) :=
  let session := w.session s
  match session.context?,session.hook with
  | some context,some hook =>
    if session.installed then some w
    else
      let w := w.modify s fun session => {session with installed := true}
      match (w.hooks.get hook).wrap? (.session s) with
      | some wrapped => do
        let w ← env.log context.logger "hook resolve module" (w.setHook hook wrapped)
        env.emit s .resolverHooked (w.activate s)
      | none => do
        let w ← env.log context.logger "host has no module resolver, not hooking" w
        env.emit s .resolverUnavailable w
  | _,_ => some w

/-- Hands a host, a hook and options to a session. With options that are rejected the session
stays inert. -/
def create (s : Nat) (host : Option Nat) (hook logger : Nat) (options : Json) (w : World σ) :
    Option (World σ) :=
  if (w.session s).phase = .disposed then env.log (some logger) "plugin disposed, ignoring create" w
  else
    let checked := Config.check options (host.map w.host)
    let w := w.modify s fun session =>
      {session with host := host,logger := some logger,hook := some hook}
    match checked with
    | .error rejection => do
      let w ← env.log (some logger) (Config.rejectionLine rejection) w
      env.emit s (.activationRejected rejection.message) w
    | .ok config => do
      let w ← env.log (some logger) ("create plugin: " ++ options.text) w
      let w ← env.emit s (.activated config.moduleName) (w.adopt s config .validated)
      env.install s w

/-- Gives a session new options and says whether it adopted them. Rejected options leave the
previous ones in force. -/
def configure (s : Nat) (options : Json) (w : World σ) : Option (Bool × World σ) := do
  let logger := (w.session s).logger
  let w ← env.log logger "config changed" w
  if (w.session s).phase = .disposed then
    let w ← env.log logger "plugin disposed, ignoring new config" w
    some (false,w)
  else
    match Config.check options ((w.session s).host.map w.host) with
    | .error rejection =>
      let w ← env.log logger
        ("reconfiguration rejected, continuing with prior config: " ++ rejection.message) w
      let w ← env.emit s (.reconfigurationRejected rejection.message) w
      some (false,w)
    | .ok config =>
      let phase := (w.session s).phase
      let w := w.adopt s config (if phase = .uninitialized then .validated else phase)
      let w ← env.emit s (.reconfigured config.moduleName) w
      let w ← env.install s w
      let w ← env.regenerate s w
      some (true,w)

/-- Looks for locale files that came or went, and says whether there were any. -/
def refresh (s : Nat) (w : World σ) : Option (Except HostFault Bool × World σ) :=
  let session := w.session s
  if session.phase ≠ .active then some (.ok false,w)
  else
    match session.context? with
    | none => some (.ok false,w)
    | some context =>
      let host := w.host context.host
      if !Host.directoryExists context.config.localesDirectory host then some (.ok false,w)
      else
        match Host.list context.config.localesDirectory host with
        | .error fault => some (.error fault,w)
        | .ok files => do
          if samePaths files (session.watches.map (·.path)) then some (.ok false,w)
          else
            let w ← env.log context.logger "locale files changed" w
            let w ← env.regenerate s w
            match ← env.refreshWatches s context w with
            | (.error fault,w) => some (.error fault,w)
            | (.ok (),w) => some (.ok true,w)
where
  samePaths (a b : List Path) : Bool := a.map Path.components = b.map Path.components

/-- Closes all watches and gives up the options. Only the first time does anything happen. -/
def dispose (s : Nat) (w : World σ) : Option (World σ) :=
  if (w.session s).phase = .disposed then some w
  else do
    let w := w.retire s
    let closed := (w.session s).watches.length
    let w ← env.log (w.session s).logger "dispose plugin" (w.unwatch (.session s))
    env.emit s (.disposed closed) w

/-- Disposes a session that its owner gives up. Whatever it still watches goes with it, unless something of
it is at work. -/
def drop (s : Nat) (w : World σ) : Option (World σ) := do
  let w ← env.dispose s w
  some ((w.modify s fun session => {session with dropped := true}).release s)

/-- A watched file changed. Unless it is gone by then, the session stays until it has seen to that. -/
def fileChanged (s : Nat) (path : Path) (w : World σ) : Option (World σ) :=
  if w.gone s then some w
  else do
    let w ← env.emit s (.fileChanged path) ((w.hold s).record (.noted (.fileChanged path)))
    let w ← env.regenerate s w
    some ((w.leave s).release s)

theorem fileChanged_of_gone {s : Nat} {w : World σ} (gone : w.gone s = true) (path : Path) :
    env.fileChanged s path w = some w := if_pos gone

/-- A session that is there says so, and regenerates. -/
theorem fileChanged_of_there {s : Nat} {path : Path} {w w' : World σ} (there : w.gone s = false) :
    env.fileChanged s path w = some w' ↔
      ∃ told made, env.emit s (.fileChanged path) ((w.hold s).record (.noted (.fileChanged path))) = some told ∧
        env.regenerate s told = some made ∧ (made.leave s).release s = w' := by
  rw [fileChanged,there]
  simp [Option.bind_eq_some_iff]

end Phrasebook.Environment
