import Phrasebook.Session.Regeneration
import Phrasebook.Session.Watching

/-! Resolution through a hook. A session answers its module with the generated file, which it
regenerates and whose sources it watches whenever it is asked. -/
namespace Phrasebook.Environment

variable {σ : Type} [Inhabited σ] [Host σ] (env : Environment σ)

/-- Watches the files that are now in the locales directory, and no others. -/
def refreshWatches (s : Nat) (context : Context) (w : World σ) :
    Option (Except HostFault Unit × World σ) :=
  match Host.list context.config.localesDirectory (w.host context.host) with
  | .error fault => some (.error fault,w)
  | .ok files => do
    let closer := if (w.session s).watches.isEmpty then none else context.logger
    let w ← env.log closer "close file watchers" w
    let w ← env.log context.logger "watch files" w
    match w.rewatch (.session s) context.host files with
    | (.error fault,w) => some (.error fault,w)
    | (.ok refreshed,w) => do
      let w ← env.log context.logger ("watched " ++ toString refreshed.opened ++ " files") w
      let w ← env.emit s (.watchesRefreshed refreshed.opened refreshed.closed) w
      some (.ok (),w)

/-- Puts an answer before those of the names that follow. -/
def answer (resolution : Option Resolution) (rest : Option (Except HostFault Answers × World σ)) :
    Option (Except HostFault Answers × World σ) :=
  rest.map fun (result,w) => (result.map (resolution :: ·),w)

omit [Inhabited σ] [Host σ] in
theorem answer_eq_some {resolution : Option Resolution} {rest} {result : Except HostFault Answers} {w : World σ} :
    answer resolution rest = some (result,w) ↔
      ∃ later, rest = some (later,w) ∧ later.map (resolution :: ·) = result := by
  simp [answer]

/-- Answers names in turn, each with what was found so far. The session's state is read anew for
every name; once it has no context, the rest is left as it is. -/
def intercept (s : Nat) (containingFile : Path) :
    List (String × Option Resolution) → World σ → Option (Except HostFault Answers × World σ)
  | [],w => some (.ok [],w)
  | (name,found) :: rest,w =>
    match (w.session s).context? with
    | none => some (.ok (found :: rest.map (·.2)),w)
    | some context =>
      if !context.config.tracks name then answer found (intercept s containingFile rest w)
      else do
        let w ← env.log context.logger ("resolve module: " ++ name) w
        if !Host.directoryExists context.config.localesDirectory (w.host context.host) then
          let w := w.record (.noted (.directoryMissing name context.config.localesDirectory))
          answer found (intercept s containingFile rest w)
        else
          let w ← env.regenerate s w
          match ← env.refreshWatches s context w with
          | (.error fault,w) => some (.error fault,w)
          | (.ok (),w) =>
            let w ← env.emit s (.moduleIntercepted name containingFile) w
            answer (some ⟨context.config.outputPath,false⟩) (intercept s containingFile rest w)

/-- Asks the baseline, then lets the layers over it have their say, the innermost first. A session
that is dropped while its layer is at work stays until the layer is done. -/
def ask (baseline : Resolver) (query : Query) :
    List Layer → World σ → Option (Except HostFault Answers × World σ)
  | [],w => some (baseline query,w.record (.asked query))
  | layer :: inner,w => do
    match ← ask baseline query inner w with
    | (.error fault,w) => some (.error fault,w)
    | (.ok answers,w) =>
      match layer with
      | .adjust f => some (.ok (f query answers),w)
      | .session s => do
        let (result,w) ←
          env.intercept s query.containingFile (query.names.zip (answers.fit query.names.length)) (w.hold s)
        some (result,(w.leave s).release s)

/-- Resolves names through whatever is in the hook; an empty hook answers nothing. -/
def resolve (hook : Nat) (query : Query) (w : World σ) : Option (Except HostFault Answers × World σ) :=
  let state := w.hooks.get hook
  match state.baseline with
  | none => some (.ok (query.names.map fun _ => none),w)
  | some baseline => env.ask baseline query state.layers w

end Phrasebook.Environment
