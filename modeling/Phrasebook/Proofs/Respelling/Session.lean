import Phrasebook.Proofs.Respelling.World
import Phrasebook.Proofs.Session.Notification
import Phrasebook.Proofs.Session.Transparency

/-! How paths are spelled does not matter to a run. Two runs of the same commands with other spellings do the same at
every step, whether they come to an end or not: `Environment.Respells.perform`, `carryOut_respells`. The loops of a
regeneration are followed side by side, so that each of them ends if the other does: `Environment.Paces`. -/
namespace Phrasebook

/-- Environments of one toolchain in which collaborators tell no spellings apart. -/
structure Environment.Respells (env env' : Environment MemoryHost) : Prop where
  toolchain : env.toolchain = env'.toolchain
  respond : ∀ {entry entry' : Entry} {w w' : World MemoryHost}, entry.Respells entry' → w.Respells w' →
    Option.Rel World.Respells (env.respond entry w) (env'.respond entry' w')

namespace Environment.Respells

variable {env env' : Environment MemoryHost} (envs : env.Respells env') {w w' : World MemoryHost}
  (worlds : w.Respells w') {s h : Nat}

include envs worlds

theorem announce {entry entry' : Entry} (entries : entry.Respells entry') :
    Option.Rel World.Respells (env.announce entry w) (env'.announce entry' w') :=
  envs.respond entries (worlds.record entries)

theorem log (logger : Option Nat) {line line' : String} (lines : Text.Respells line line') :
    Option.Rel World.Respells (env.log logger line w) (env'.log logger line' w') := by
  cases logger with
  | none => exact .some worlds
  | some logger => exact envs.announce worlds (.logged logger lines)

theorem emit {event event' : Event} (events : event.Respells event') :
    Option.Rel World.Respells (env.emit s event w) (env'.emit s event' w') := by
  rw [Environment.emit,Environment.emit,(worlds.session s).sink]
  split
  · exact envs.announce worlds (.emitted _ events)
  · exact .some worlds

theorem announceCall (generator : Option Nat) :
    Option.Rel World.Respells (env.announceCall generator w) (env'.announceCall generator w') := by
  cases generator with
  | none => exact .some worlds
  | some s =>
    have called : World.Respells (w.modify s fun session => {session with generations := session.generations + 1})
        (w'.modify s fun session => {session with generations := session.generations + 1}) :=
      worlds.modify fun sessions => {sessions with generations := congrArg (· + 1) sessions.generations}
    simp only [Environment.announceCall,(called.session s).generations]
    exact envs.announce called (.same _)

theorem render (generator : Option Nat) {config config' : Config} (configs : config.Respells config')
    (target : Target) : Option.Rel (Both (Except.Rel RunFault.Respells (· = ·)) World.Respells)
      (env.render generator h config target w) (env'.render generator h config' target w') := by
  have loads := env.toolchain.load_respells (worlds.host h) configs.localesDirectory
  rw [Environment.render,Environment.render,← envs.toolchain,configs.mode]
  obtain ⟨_,_,left,right,faults⟩ | ⟨entries,_,left,right,rfl⟩ := loads.casework
  · simp only [left,right]
    exact .some ⟨.error faults,worlds⟩
  · simp only [left,right]
    refine (envs.announceCall worlds generator).bind fun called called' calls => ?_
    split
    · exact .some ⟨.error (.generator _),calls⟩
    · exact .some ⟨.ok rfl,calls⟩

omit envs in
theorem save {output output' : Path} (outputs : output.Respells output')
    {rendered rendered' : Except RunFault (List Locale.Entry × String)}
    (results : Except.Rel RunFault.Respells (· = ·) rendered rendered') :
    Both (Except.Rel RunFault.Respells Report.Respells) World.Respells (Environment.save h output rendered w)
      (Environment.save h output' rendered' w') := by
  cases results with
  | error faults => exact ⟨.error faults,worlds⟩
  | @ok generated _ same =>
    subst same
    obtain ⟨entries,source⟩ := generated
    obtain ⟨_,_,left,right,faults⟩ | ⟨_,_,left,right,states⟩ :=
      ((worlds.host h).write outputs source).casework
    · simp only [Environment.save,Host.write,left,right]
      exact ⟨.error (.write faults),worlds⟩
    · simp only [Environment.save,Host.write,left,right]
      exact ⟨.ok ⟨outputs,rfl,rfl⟩,worlds.setHost states⟩

theorem produce (generator logger : Option Nat) {config config' : Config} (configs : config.Respells config') :
    Option.Rel (Both (Except.Rel RunFault.Respells Report.Respells) World.Respells)
      (env.produce generator h logger config w) (env'.produce generator h logger config' w') := by
  refine (envs.log worlds logger (.path _ configs.outputPath)).bind fun logged logged' logs => ?_
  refine (envs.render logs generator configs .types).bind ?_
  rintro ⟨rendered,called⟩ ⟨rendered',called'⟩ ⟨results,calls⟩
  have saves := save calls (h := h) configs.outputPath results
  dsimp only at saves ⊢
  generalize Environment.save h config.outputPath rendered called = x at saves ⊢
  generalize Environment.save h config'.outputPath rendered' called' = y at saves ⊢
  obtain ⟨result,saved⟩ := x
  obtain ⟨result',saved'⟩ := y
  obtain ⟨results,saves⟩ := saves
  cases results with
  | error faults =>
    refine (envs.log saves logger (.run _ faults)).bind fun told told' tells => ?_
    exact .some ⟨.error faults,tells⟩
  | ok reports =>
    refine (envs.log saves logger (.path _ configs.outputPath)).bind fun told told' tells => ?_
    exact .some ⟨.ok reports,tells.record (.noted (.regenerated reports))⟩

theorem runOnce : Option.Rel World.Respells (env.runOnce s w) (env'.runOnce s w') := by
  obtain ⟨context,context',left,right,contexts⟩ | ⟨left,right⟩ := (worlds.session s).context.casework
  · simp only [Environment.runOnce,left,right,contexts.host,contexts.logger]
    have starts : (w.start s context.config).Respells (w'.start s context'.config) :=
      worlds.reach (.started contexts.config) fun sessions => {sessions with runs := congrArg (· + 1) sessions.runs}
    have finishes {u u' : World MemoryHost} (ends : u.Respells u') {status status' : Status}
        (statuses : status.Respells status') : (u.finish s status).Respells (u'.finish s status') :=
      ends.reach (.ended statuses) fun sessions => {sessions with last := .some statuses}
    refine (envs.produce starts (some s) context'.logger contexts.config).bind ?_
    rintro ⟨result,made⟩ ⟨result',made'⟩ ⟨results,makes⟩
    cases results with
    | error faults =>
      refine (envs.emit makes (.regenerationFailed (.ofRun faults))).bind fun told told' tells => ?_
      exact .some (finishes tells (.failed (.ofRun faults)))
    | ok reports =>
      simp only [reports.locales,reports.digest]
      refine (envs.emit makes (.regenerated reports.output _ _)).bind fun told told' tells => ?_
      exact .some (finishes tells (.written reports))
  · simp only [Environment.runOnce,left,right]
    exact .some worlds

end Environment.Respells

/-- Worlds in which two environments make the runs of a session side by side. -/
structure Environment.Paces (env env' : Environment MemoryHost) (s : Nat)
    (R : World MemoryHost → World MemoryHost → Prop) : Prop where
  requested : ∀ {w w'}, R w w' → (w.session s).requested = (w'.session s).requested
  inFlight : ∀ {w w'}, R w w' → (w.session s).inFlight = (w'.session s).inFlight
  heed : ∀ {w w'}, R w w' → R (w.heed s) (w'.heed s)
  lock : ∀ {w w'}, R w w' → R (w.lock s) (w'.lock s)
  unlock : ∀ {w w'}, R w w' → R (w.unlock s) (w'.unlock s)
  runOnce : ∀ {w w'}, R w w' → Option.Rel R (env.runOnce s w) (env'.runOnce s w')

namespace Environment.Paces

variable {env env' : Environment MemoryHost} {s : Nat} {R : World MemoryHost → World MemoryHost → Prop}
  (paces : env.Paces env' s R) {w w' v : World MemoryHost}

include paces

theorem swap : env'.Paces env s fun w' w => R w w' where
  requested related := (paces.requested related).symm
  inFlight related := (paces.inFlight related).symm
  heed := paces.heed
  lock := paces.lock
  unlock := paces.unlock
  runOnce related := (paces.runOnce related).swap

-- The induction is on the run of the first loop, so the world of the second is generalized.
theorem drain_of_some (related : R w w') (run : env.drain s w = some v) :
    ∃ v', env'.drain s w' = some v' ∧ R v v' := by
  refine Environment.drain.partial_correctness env s
    (fun w v => ∀ w', R w w' → ∃ v', env'.drain s w' = some v' ∧ R v v') ?_ w v run w' related
  intro drain ih w v run w' related
  rw [Environment.drain,← paces.requested related]
  split at run
  next asked =>
    simp only [Option.bind_eq_bind,Option.bind_eq_some_iff] at run
    obtain ⟨next,once,run⟩ := run
    obtain ⟨_,next',left,right,follows⟩ | ⟨left,-⟩ := (paces.runOnce (paces.heed related)).casework
    · cases left.symm.trans once
      obtain ⟨v',drained,ends⟩ := ih _ _ run next' follows
      exact ⟨v',by simp [asked,right,drained],ends⟩
    · cases left.symm.trans once
  next settled =>
    cases run
    exact ⟨w',by rw [if_neg settled],related⟩

/-- Either loop ends if the other does. -/
theorem drain (related : R w w') : Option.Rel R (env.drain s w) (env'.drain s w') :=
  .of_both (fun _ => paces.drain_of_some related) fun _ => paces.swap.drain_of_some related

theorem attempt_of_some (related : R w w') (run : env.attempt s w = some v) :
    ∃ v', env'.attempt s w' = some v' ∧ R v v' := by
  refine Environment.attempt.partial_correctness env s
    (fun w v => ∀ w', R w w' → ∃ v', env'.attempt s w' = some v' ∧ R v v') ?_ w v run w' related
  intro attempt ih w v run w' related
  rw [Environment.attempt,← paces.inFlight related]
  split at run
  next busy =>
    cases run
    exact ⟨w',by rw [if_pos busy],related⟩
  next idle =>
    simp only [Option.bind_eq_bind,Option.bind_eq_some_iff] at run
    obtain ⟨drained,drain,run⟩ := run
    obtain ⟨_,drained',left,right,follows⟩ | ⟨left,-⟩ := (paces.drain (paces.lock related)).casework
    · cases left.symm.trans drain
      have unlocked := paces.unlock follows
      simp only [if_neg idle,right,Option.bind_eq_bind,Option.bind_some,← paces.requested unlocked]
      split at run
      next again =>
        obtain ⟨v',attempted,ends⟩ := ih _ _ run _ unlocked
        exact ⟨v',by rw [if_pos again,attempted],ends⟩
      next settled =>
        cases run
        exact ⟨_,by rw [if_neg settled],unlocked⟩
    · cases left.symm.trans drain

theorem attempt (related : R w w') : Option.Rel R (env.attempt s w) (env'.attempt s w') :=
  .of_both (fun _ => paces.attempt_of_some related) fun _ => paces.swap.attempt_of_some related

end Environment.Paces

namespace Environment.Respells

variable {env env' : Environment MemoryHost} (envs : env.Respells env') {w w' : World MemoryHost}
  (worlds : w.Respells w') {s h : Nat}

include envs

theorem paces : env.Paces env' s World.Respells where
  requested worlds := (worlds.session s).requested
  inFlight worlds := (worlds.session s).inFlight
  heed worlds := worlds.modify fun sessions => {sessions with requested := rfl}
  lock worlds := worlds.modify fun sessions => {sessions with inFlight := rfl}
  unlock worlds := worlds.modify fun sessions => {sessions with inFlight := rfl}
  runOnce worlds := envs.runOnce worlds

include worlds

theorem regenerate : Option.Rel World.Respells (env.regenerate s w) (env'.regenerate s w') :=
  envs.paces.attempt (worlds.reach (.same _) fun sessions => {sessions with requested := rfl})

theorem install : Option.Rel World.Respells (env.install s w) (env'.install s w') := by
  simp only [Environment.install,(worlds.session s).hook,(worlds.session s).installed]
  obtain ⟨context,context',left,right,contexts⟩ | ⟨left,right⟩ := (worlds.session s).context.casework
  · simp only [left,right]
    cases (w'.session s).hook with
    | none => exact .some worlds
    | some hook =>
      dsimp only
      split
      · exact .some worlds
      · have tried : World.Respells (w.modify s fun session => {session with installed := true})
            (w'.modify s fun session => {session with installed := true}) :=
          worlds.modify fun sessions => {sessions with installed := rfl}
        rw [contexts.logger]
        obtain ⟨wrapped,wrapped',left,right,wraps⟩ | ⟨left,right⟩ := ((tried.hook hook).wrap (.session s)).casework
        · simp only [left,right]
          refine (envs.log (tried.setHook wraps) _ (.same _)).bind fun told told' tells => ?_
          exact envs.emit (tells.reach (.same _) fun sessions => {sessions with phase := rfl}) (.same _)
        · simp only [left,right]
          refine (envs.log tried _ (.same _)).bind fun told told' tells => ?_
          exact envs.emit tells (.same _)
  · simp only [left,right]
    exact .some worlds

theorem create (host : Option Nat) (hook logger : Nat) {options options' : Json}
    (related : Options.JsonRespells options options') :
    Option.Rel World.Respells (env.create s host hook logger options w)
      (env'.create s host hook logger options' w') := by
  simp only [Environment.create,(worlds.session s).phase]
  split
  · exact envs.log worlds _ (.same _)
  · have hosts : Option.Rel MemoryHost.Respells (host.map w.host) (host.map w'.host) := by
      cases host with
      | none => exact .none
      | some h => exact .some (worlds.host h)
    have handed : World.Respells
        (w.modify s fun session => {session with host := host,logger := some logger,hook := some hook})
        (w'.modify s fun session => {session with host := host,logger := some logger,hook := some hook}) :=
      worlds.modify fun sessions => {sessions with host := rfl,logger := rfl,hook := rfl}
    obtain ⟨_,_,left,right,rejections⟩ | ⟨config,config',left,right,configs⟩ :=
      (Config.check_respells related hosts).casework
    · simp only [left,right]
      refine (envs.log handed _ (.rejection _ rejections)).bind fun told told' tells => ?_
      exact envs.emit tells (.activationRejected (.ofRejection rejections))
    · simp only [left,right,configs.moduleName]
      refine (envs.log handed _ (.options _ related)).bind fun told told' tells => ?_
      have adopts : (told.adopt s config .validated).Respells (told'.adopt s config' .validated) :=
        tells.reach (.adopted configs) fun sessions => {sessions with config := .some configs,phase := rfl}
      refine (envs.emit adopts (.same _)).bind fun announced announced' announces => ?_
      exact envs.install announces

theorem configure {options options' : Json} (related : Options.JsonRespells options options') :
    Option.Rel (Both (· = ·) World.Respells) (env.configure s options w) (env'.configure s options' w') := by
  simp only [Environment.configure,(worlds.session s).logger]
  refine (envs.log worlds _ (.same _)).bind fun told told' tells => ?_
  simp only [(tells.session s).phase,(tells.session s).host]
  split
  · refine (envs.log tells _ (.same _)).bind fun ignored ignored' ignores => ?_
    exact .some ⟨rfl,ignores⟩
  · have hosts : Option.Rel MemoryHost.Respells ((told'.session s).host.map told.host)
        ((told'.session s).host.map told'.host) := by
      cases (told'.session s).host with
      | none => exact .none
      | some h => exact .some (tells.host h)
    obtain ⟨_,_,left,right,rejections⟩ | ⟨config,config',left,right,configs⟩ :=
      (Config.check_respells related hosts).casework
    · simp only [left,right]
      refine (envs.log tells _ (.rejection _ rejections)).bind fun rejected rejected' rejects => ?_
      refine (envs.emit rejects (.reconfigurationRejected (.ofRejection rejections))).bind fun _ _ emits => ?_
      exact .some ⟨rfl,emits⟩
    · simp only [left,right,configs.moduleName]
      have adopts (phase : Phase) : (told.adopt s config phase).Respells (told'.adopt s config' phase) :=
        tells.reach (.adopted configs) fun sessions => {sessions with config := .some configs,phase := rfl}
      refine (envs.emit (adopts _) (.same _)).bind fun announced announced' announces => ?_
      refine (envs.install announces).bind fun hooked hooked' hooks => ?_
      refine (envs.regenerate hooks).bind fun made made' makes => ?_
      exact .some ⟨rfl,makes⟩

theorem refreshWatches {context context' : Context} (contexts : context.Respells context') :
    Option.Rel (Both (Except.Rel HostFault.Respells fun _ _ => True) World.Respells) (env.refreshWatches s context w)
      (env'.refreshWatches s context' w') := by
  simp only [Environment.refreshWatches,contexts.host,contexts.logger]
  obtain ⟨_,_,left,right,faults⟩ | ⟨files,files',left,right,paths⟩ :=
    ((worlds.host context'.host).list contexts.config.localesDirectory).casework
  · simp only [Host.list,left,right]
    exact .some ⟨.error faults,worlds⟩
  · have closer : (w.session s).watches.isEmpty = (w'.session s).watches.isEmpty := by
      rw [Bool.eq_iff_iff,List.isEmpty_iff_length_eq_zero,List.isEmpty_iff_length_eq_zero,
        (worlds.session s).watches.length_eq]
    simp only [Host.list,left,right,closer]
    refine (envs.log worlds _ (.same _)).bind fun closing closing' closes => ?_
    refine (envs.log closes _ (.same _)).bind fun opening opening' opens => ?_
    have rewatches := opens.rewatch (h := context'.host) (.session s) paths
    generalize opening.rewatch (.session s) context'.host files = x at rewatches ⊢
    generalize opening'.rewatch (.session s) context'.host files' = y at rewatches ⊢
    obtain ⟨result,watched⟩ := x
    obtain ⟨result',watched'⟩ := y
    obtain ⟨results,watches⟩ := rewatches
    cases results with
    | error faults => exact .some ⟨.error faults,watches⟩
    | @ok refreshed _ same =>
      subst same
      refine (envs.log watches _ (.same _)).bind fun told told' tells => ?_
      refine (envs.emit tells (.same _)).bind fun _ _ emits => ?_
      exact .some ⟨.ok trivial,emits⟩

theorem refresh : Option.Rel (Both (Except.Rel HostFault.Respells (· = ·)) World.Respells) (env.refresh s w)
    (env'.refresh s w') := by
  simp only [Environment.refresh,(worlds.session s).phase]
  split
  · exact .some ⟨.ok rfl,worlds⟩
  · obtain ⟨context,context',left,right,contexts⟩ | ⟨left,right⟩ := (worlds.session s).context.casework
    · have present := (worlds.host context'.host).directoryExists contexts.config.localesDirectory
      simp only [left,right,contexts.host,contexts.logger,Host.directoryExists,present]
      split
      · exact .some ⟨.ok rfl,worlds⟩
      · obtain ⟨_,_,left,right,faults⟩ | ⟨files,files',left,right,paths⟩ :=
          ((worlds.host context'.host).list contexts.config.localesDirectory).casework
        · simp only [Host.list,left,right]
          exact .some ⟨.error faults,worlds⟩
        · -- Listings are compared by components, so neither run regenerates alone.
          have unchanged : refresh.samePaths files ((w.session s).watches.map (·.path)) =
              refresh.samePaths files' ((w'.session s).watches.map (·.path)) := by
            have watched := map_of_forall₂ (worlds.session s).watches fun _ _ handle => handle.path
            rw [refresh.samePaths,refresh.samePaths,map_eq_of_forall₂ paths fun _ _ path => path.components,
              map_eq_of_forall₂ watched fun _ _ path => path.components]
          simp only [Host.list,left,right,unchanged]
          split
          · exact .some ⟨.ok rfl,worlds⟩
          · refine (envs.log worlds _ (.same _)).bind fun told told' tells => ?_
            refine (envs.regenerate tells).bind fun made made' makes => ?_
            refine (envs.refreshWatches makes contexts).bind ?_
            rintro ⟨result,watched⟩ ⟨result',watched'⟩ ⟨results,watches⟩
            cases results with
            | error faults => exact .some ⟨.error faults,watches⟩
            | ok => exact .some ⟨.ok rfl,watches⟩
    · simp only [left,right]
      exact .some ⟨.ok rfl,worlds⟩

theorem dispose : Option.Rel World.Respells (env.dispose s w) (env'.dispose s w') := by
  simp only [Environment.dispose,(worlds.session s).phase]
  split
  · exact .some worlds
  · have retires : (w.retire s).Respells (w'.retire s) :=
      worlds.reach (.same _) fun sessions => {sessions with phase := rfl,config := .none}
    rw [(retires.session s).logger,(retires.session s).watches.length_eq]
    refine (envs.log (retires.unwatch _) _ (.same _)).bind fun told told' tells => ?_
    exact envs.emit tells (.same _)

theorem drop : Option.Rel World.Respells (env.drop s w) (env'.drop s w') := by
  refine (envs.dispose worlds).bind fun disposed disposed' disposes => ?_
  exact .some (disposes.modify fun sessions => {sessions with dropped := rfl}).release

theorem fileChanged {path path' : Path} (paths : path.Respells path') :
    Option.Rel World.Respells (env.fileChanged s path w) (env'.fileChanged s path' w') := by
  rw [Environment.fileChanged,Environment.fileChanged,worlds.gone]
  split
  · exact .some worlds
  · have notes := (worlds.hold (s := s)).record (.noted (.fileChanged paths))
    refine (envs.emit notes (.fileChanged paths)).bind fun told told' tells => ?_
    exact (envs.regenerate tells).bind fun _ _ regenerates => .some regenerates.leave.release

omit envs worlds in
theorem answer {found found' : Option Resolution} (founds : Option.Rel Resolution.Respells found found')
    {rest rest' : Option (Except HostFault Answers × World MemoryHost)}
    (rests : Option.Rel (Both (Except.Rel HostFault.Respells Answers.Respells) World.Respells) rest rest') :
    Option.Rel (Both (Except.Rel HostFault.Respells Answers.Respells) World.Respells) (Environment.answer found rest)
      (Environment.answer found' rest') :=
  rests.map fun _ _ both => ⟨both.left.map fun _ _ answers => .cons founds answers,both.right⟩

theorem intercept {file file' : Path} (files : file.Respells file') {found found' : List (String × Option Resolution)}
    (founds : List.Forall₂ (Both (· = ·) (Option.Rel Resolution.Respells)) found found') :
    Option.Rel (Both (Except.Rel HostFault.Respells Answers.Respells) World.Respells) (env.intercept s file found w)
      (env'.intercept s file' found' w') := by
  induction founds generalizing w w' with
  | nil => exact .some ⟨.ok .nil,worlds⟩
  | @cons first first' rest rest' names rests ih =>
    obtain ⟨name,resolution⟩ := first
    obtain ⟨_,resolution'⟩ := first'
    obtain ⟨same,resolutions⟩ := names
    obtain rfl : name = _ := same
    obtain ⟨context,context',left,right,contexts⟩ | ⟨left,right⟩ := (worlds.session s).context.casework
    · have tracks : context.config.tracks name = context'.config.tracks name := by
        rw [Config.tracks,Config.tracks,contexts.config.moduleName]
      simp only [Environment.intercept,left,right,contexts.host,contexts.logger,tracks]
      split
      · exact answer resolutions (ih worlds)
      · refine (envs.log worlds _ (.same _)).bind fun told told' tells => ?_
        have present := (tells.host context'.host).directoryExists contexts.config.localesDirectory
        simp only [Host.directoryExists,present]
        split
        · exact answer resolutions
            (ih (tells.record (.noted (.directoryMissing name contexts.config.localesDirectory))))
        · refine (envs.regenerate tells).bind fun made made' makes => ?_
          refine (envs.refreshWatches makes contexts).bind ?_
          rintro ⟨result,watched⟩ ⟨result',watched'⟩ ⟨results,watches⟩
          cases results with
          | error faults => exact .some ⟨.error faults,watches⟩
          | ok =>
            have output : Resolution.Respells ⟨context.config.outputPath,false⟩ ⟨context'.config.outputPath,false⟩ :=
              ⟨contexts.config.outputPath,rfl⟩
            refine (envs.emit watches (.moduleIntercepted name files)).bind fun _ _ emits => ?_
            exact answer (.some output) (ih emits)
    · simp only [Environment.intercept,left,right]
      exact .some ⟨.ok (.cons resolutions (map_of_forall₂ rests fun _ _ later => later.right)),worlds⟩

theorem ask {baseline baseline' : Resolver} (baselines : Resolver.Respells baseline baseline')
    {query query' : Query} (queries : query.Respells query') {layers layers' : List Layer}
    (related : List.Forall₂ Layer.Respells layers layers') :
    Option.Rel (Both (Except.Rel HostFault.Respells Answers.Respells) World.Respells)
      (env.ask baseline query layers w) (env'.ask baseline' query' layers' w') := by
  induction related with
  | nil => exact .some ⟨baselines _ _ queries,worlds.record (.asked queries)⟩
  | cons layer _ ih =>
    refine ih.bind ?_
    rintro ⟨result,asked⟩ ⟨result',asked'⟩ ⟨results,asks⟩
    cases results with
    | error faults => exact .some ⟨.error faults,asks⟩
    | ok answers =>
      cases layer with
      | adjust adjusts => exact .some ⟨.ok (adjusts _ _ _ _ queries answers),asks⟩
      | session s =>
        rw [queries.names]
        refine (envs.intercept asks.hold queries.containingFile (Answers.zip_fit query'.names answers)).bind ?_
        rintro ⟨final,intercepted⟩ ⟨final',intercepted'⟩ ⟨finals,intercepts⟩
        exact .some ⟨finals,intercepts.leave.release⟩

theorem resolve (hook : Nat) {query query' : Query} (queries : query.Respells query') :
    Option.Rel (Both (Except.Rel HostFault.Respells Answers.Respells) World.Respells) (env.resolve hook query w)
      (env'.resolve hook query' w') := by
  have hooks := worlds.hook hook
  simp only [Environment.resolve]
  obtain ⟨baseline,baseline',left,right,baselines⟩ | ⟨left,right⟩ := hooks.baseline.casework
  · simp only [left,right]
    exact envs.ask worlds baselines queries hooks.layers
  · simp only [left,right,queries.names]
    refine .some ⟨.ok ?_,worlds⟩
    exact map_of_forall₂ (List.forall₂_same.mpr fun _ _ => rfl) fun _ _ (_ : _ = _) => .none

theorem fire {watch watch' : Watch} (watches : watch.Respells watch') :
    Option.Rel World.Respells (env.fire watch w) (env'.fire watch' w') := by
  rw [Environment.fire,Environment.fire,watches.subscriber]
  split
  · exact envs.fileChanged worlds watches.path
  · exact .some (worlds.record (.changed _ watches.path))

theorem fireAll {watches watches' : List Watch} (related : List.Forall₂ Watch.Respells watches watches') :
    Option.Rel World.Respells (env.fireAll watches w) (env'.fireAll watches' w') := by
  induction related generalizing w w' with
  | nil => exact .some worlds
  | cons watch _ ih => exact (envs.fire worlds watch).bind fun _ _ fires => ih fires

theorem notify {path path' : Path} (paths : path.Respells path') :
    Option.Rel (Both (· = ·) World.Respells) (env.notify h path w) (env'.notify h path' w') := by
  have pruned := (worlds.host h).prune
  have watches := pruned.watchesOn paths
  refine (envs.fireAll (worlds.setHost pruned) watches).bind fun fired fired' fires => ?_
  exact .some ⟨watches.length_eq,fires⟩

omit envs worlds in
theorem runReply {α β : Type} {R : α → β → Prop} {result : Except RunFault α} {result' : Except RunFault β}
    (results : Except.Rel RunFault.Respells R result result') {reply : α → Reply} {reply' : β → Reply}
    (replies : ∀ a b, R a b → (reply a).Respells (reply' b)) :
    (Environment.runReply result reply).Respells (Environment.runReply result' reply') := by
  cases results with
  | error faults => exact .runFault faults
  | ok values => exact replies _ _ values

omit envs worlds in
theorem hostReply {α β : Type} {R : α → β → Prop} {result : Except HostFault α} {result' : Except HostFault β}
    (results : Except.Rel HostFault.Respells R result result') {reply : α → Reply} {reply' : β → Reply}
    (replies : ∀ a b, R a b → (reply a).Respells (reply' b)) :
    (Environment.hostReply result reply).Respells (Environment.hostReply result' reply') := by
  cases results with
  | error faults => exact .hostFault faults
  | ok values => exact replies _ _ values

omit envs in
theorem onSession {f f' : World MemoryHost → Option (Reply × World MemoryHost)}
    (follows : Option.Rel (Both Reply.Respells World.Respells) (f w) (f' w')) :
    Option.Rel (Both Reply.Respells World.Respells) (Environment.onSession s w f) (Environment.onSession s w' f') := by
  rw [Environment.onSession,Environment.onSession,(worlds.session s).dropped]
  split
  · exact .some ⟨.same _,worlds⟩
  · exact follows

/-- A command with other spellings is carried out with those spellings. -/
theorem perform {command command' : Command} (commands : command.Respells command') :
    Option.Rel (Both Reply.Respells World.Respells) (env.perform command w) (env'.perform command' w') := by
  cases commands with
  | host h commands =>
    have performs := (worlds.host h).perform commands
    exact .some ⟨performs.left,worlds.setHost performs.right⟩
  | edit h paths content =>
    refine (envs.notify (worlds.setHost ((worlds.host h).insert paths)) paths).bind fun _ _ notifies => ?_
    exact .some ⟨.same _,notifies.right⟩
  | notify h paths =>
    refine (envs.notify worlds paths).bind ?_
    rintro ⟨count,notified⟩ ⟨_,notified'⟩ ⟨same,notifies⟩
    obtain rfl : count = _ := same
    exact .some ⟨.same _,notifies⟩
  | load h directories =>
    have loads := env.toolchain.load_respells (worlds.host h) directories
    simp only [Environment.perform,← envs.toolchain]
    exact .some ⟨runReply loads fun _ _ same => same ▸ .same _,worlds⟩
  | render h configs target =>
    refine (envs.render worlds none configs target).bind fun _ _ renders => ?_
    exact .some ⟨runReply renders.left fun _ _ same => same ▸ .same _,renders.right⟩
  | generate h logger configs =>
    refine (envs.produce worlds none (some logger) configs).bind fun _ _ produces => ?_
    exact .some ⟨runReply produces.left fun _ _ => .report,produces.right⟩
  | rewatch r h paths =>
    have rewatches := worlds.rewatch (h := h) (.recorder r) paths
    exact .some ⟨hostReply rewatches.left fun _ _ same => same ▸ .same _,rewatches.right⟩
  | unwatch r =>
    simp only [Environment.perform,(worlds.watches (.recorder r)).length_eq]
    exact .some ⟨.same _,worlds.unwatch (.recorder r)⟩
  | dropRecorder r => exact .some ⟨.same _,worlds.unwatch (.recorder r)⟩
  | watched r =>
    have watched := map_of_forall₂ (worlds.watches (.recorder r)) fun _ _ handle => handle.path
    exact .some ⟨.watching watched,worlds⟩
  | hookState i =>
    have hooks := worlds.hook i
    have resolver : (w.hooks.get i).hasResolver = (w'.hooks.get i).hasResolver := hooks.baseline.isSome_eq
    simp only [Environment.perform,resolver,Hook.wrapCount,hooks.layers.length_eq]
    exact .some ⟨.same _,worlds⟩
  | resolve hook queries =>
    refine (envs.resolve worlds hook queries).bind fun _ _ resolves => ?_
    exact .some ⟨hostReply resolves.left fun _ _ => .answers,resolves.right⟩
  | create s host hook logger options =>
    simp only [Environment.perform]
    refine onSession worlds ?_
    exact (envs.create worlds host hook logger options).bind fun _ _ creates => .some ⟨.same _,creates⟩
  | configure s options =>
    simp only [Environment.perform]
    refine onSession worlds ?_
    refine (envs.configure worlds options).bind ?_
    rintro ⟨adopted,configured⟩ ⟨_,configured'⟩ ⟨same,configures⟩
    obtain rfl : adopted = _ := same
    exact .some ⟨.same _,configures⟩
  | regenerate s =>
    simp only [Environment.perform]
    refine onSession worlds ?_
    exact (envs.regenerate worlds).bind fun _ _ regenerates => .some ⟨.same _,regenerates⟩
  | refresh s =>
    simp only [Environment.perform]
    refine onSession worlds ?_
    refine (envs.refresh worlds).bind fun _ _ refreshes => ?_
    exact .some ⟨hostReply refreshes.left fun _ _ same => same ▸ .same _,refreshes.right⟩
  | dispose s =>
    simp only [Environment.perform]
    refine onSession worlds ?_
    exact (envs.dispose worlds).bind fun _ _ disposes => .some ⟨.same _,disposes⟩
  | renewSink s =>
    simp only [Environment.perform]
    exact onSession worlds (.some ⟨.same _,worlds.renewSink⟩)
  | drop s =>
    simp only [Environment.perform]
    refine onSession worlds ?_
    exact (envs.drop worlds).bind fun _ _ drops => .some ⟨.same _,drops⟩

theorem follow {script script' : Script} (scripts : script.Respells script') :
    Option.Rel World.Respells (env.follow script w) (env'.follow script' w') := by
  induction scripts generalizing w w' with
  | done => exact .some worlds
  | issue command _ ih =>
    -- Both scripts go on by their replies, which are related by now.
    refine (envs.perform worlds command).bind fun _ _ performs => ?_
    exact ih _ _ performs.left (performs.right.record (.nested performs.left))

theorem carryOut {commands commands' : List Command} (related : List.Forall₂ Command.Respells commands commands') :
    Option.Rel (Both (List.Forall₂ Reply.Respells) World.Respells) (env.carryOut commands w)
      (env'.carryOut commands' w') := by
  induction related generalizing w w' with
  | nil => exact .some ⟨.nil,worlds⟩
  | cons command _ ih =>
    refine (envs.perform worlds command).bind fun _ _ performs => ?_
    refine (ih performs.right).bind fun _ _ carries => ?_
    exact .some ⟨.cons performs.left carries.left,carries.right⟩

end Environment.Respells

theorem Environment.toolchain_scripted (tools : Toolchain) (behaviour : Behaviour) (depth : Nat) :
    (Environment.scripted tools behaviour depth).toolchain = tools := by
  cases depth <;> rfl

/-- However deep scripts set off scripts. -/
theorem Environment.scripted_respells (tools : Toolchain) {behaviour behaviour' : Behaviour}
    (behaviours : behaviour.Respells behaviour') (depth : Nat) :
    (Environment.scripted tools behaviour depth).Respells (.scripted tools behaviour' depth) := by
  refine ⟨by rw [toolchain_scripted,toolchain_scripted],?_⟩
  induction depth with
  | zero =>
    intro entry entry' w w' entries worlds
    have scripts := behaviours entries worlds
    simp only [Environment.scripted]
    generalize behaviour entry w = script at scripts ⊢
    generalize behaviour' entry' w' = script' at scripts ⊢
    cases scripts with
    | done => exact .some worlds
    | issue => exact .none
  | succ depth ih =>
    intro entry entry' w w' entries worlds
    have envs : (Environment.scripted tools behaviour depth).Respells (.scripted tools behaviour' depth) :=
      ⟨by rw [toolchain_scripted,toolchain_scripted],ih⟩
    simp only [Environment.scripted]
    exact envs.follow worlds (behaviours entries worlds)

/-- The spelling of paths does not matter. If two worlds differ in nothing else, and collaborators tell no spellings
apart, then the same commands with other spellings come to an end in both or in neither; and they get the same replies
and leave the same hosts, sessions and past, told with other spellings. -/
theorem carryOut_respells (tools : Toolchain) {behaviour behaviour' : Behaviour} (depth : Nat)
    {commands commands' : List Command} {w w' : World MemoryHost} (behaviours : behaviour.Respells behaviour')
    (related : List.Forall₂ Command.Respells commands commands') (worlds : w.Respells w') :
    Option.Rel (Both (List.Forall₂ Reply.Respells) World.Respells)
      ((Environment.scripted tools behaviour depth).carryOut commands w)
      ((Environment.scripted tools behaviour' depth).carryOut commands' w') :=
  (Environment.scripted_respells tools behaviours depth).carryOut worlds related

section Loose

/-- The same options as `plainOptions`. -/
def looseOptions : Json := .object
  [("moduleName",.string "i18n"),("localesDirectory",.string "/p//locales/"),
    ("outputPath",.string "/p/./src/i18n.d.ts")]

theorem looseOptions_respells : Options.JsonRespells plainOptions looseOptions := by
  have directory : Options.Field.ofKey? "localesDirectory" = some .localesDirectory := by decide +kernel
  have output : Options.Field.ofKey? "outputPath" = some .outputPath := by decide +kernel
  refine .object (.cons ⟨rfl,.same _ _⟩ (.cons ⟨rfl,?_⟩ (.cons ⟨rfl,?_⟩ .nil)))
  · have paths : Path.Respells ⟨"/p/locales"⟩ ⟨"/p//locales/"⟩ := by decide +kernel
    exact directory ▸ .localesDirectory paths
  · have paths : Path.Respells ⟨"/p/src/i18n.d.ts"⟩ ⟨"/p/./src/i18n.d.ts"⟩ := by decide +kernel
    exact output ▸ .outputPath paths

theorem vacant_respells : World.vacant.Respells .vacant := by
  refine World.respells_self fun i => ?_
  cases i with
  | zero =>
    refine ⟨.some fun query query' queries => .ok ?_,.nil⟩
    rw [queries.names]
    exact List.forall₂_same.mpr fun answer member => by
      obtain ⟨_,-,rfl⟩ := List.mem_map.mp member
      exact .none
  | succ i => exact ⟨.none,.nil⟩

/-- The output of the other options is found under a third spelling. -/
theorem loose_carried_out : ∃ v : World MemoryHost, (Environment.silent .copying).carryOut
    [.create 0 (some 0) 0 0 looseOptions,.regenerate 0,.host 0 (.file ⟨"/p/src//i18n.d.ts"⟩)] .vacant =
      some ([.service 0,.done,.text (some "a: b")],v) := by
  have ran : ((Environment.silent .copying).regenerateOnce 0 .manned).any (fun v =>
      (v.host 0).file? plainContext.config.outputPath = some "a: b") = true := by
    decide +kernel
  obtain ⟨made,once,output⟩ := (Option.any_eq_true _ _).mp ran
  have created : (Environment.silent .copying).perform (.create 0 (some 0) 0 0 plainOptions) .vacant =
      some (.service 0,.manned) := by rfl
  have regenerated : (Environment.silent .copying).perform (.regenerate 0) .manned = some (.done,made) := by
    simp [Environment.perform,Environment.onSession,manned_held,Environment.regenerate_of_once once]
  have read : (Environment.silent .copying).perform (.host 0 (.file plainContext.config.outputPath)) made =
      some (.text (some "a: b"),made.setHost 0 (made.host 0)) := by
    simp [Environment.perform,MemoryHost.perform,of_decide_eq_true output]
  have plain : (Environment.silent .copying).carryOut
      [.create 0 (some 0) 0 0 plainOptions,.regenerate 0,.host 0 (.file plainContext.config.outputPath)] .vacant =
        some ([.service 0,.done,.text (some "a: b")],made.setHost 0 (made.host 0)) := by
    simp [Environment.carryOut,created,regenerated,read]
  have quiet : Behaviour.Respells (fun _ _ => .done) fun _ _ => .done := fun _ _ => .done
  have paths : plainContext.config.outputPath.Respells ⟨"/p/src//i18n.d.ts"⟩ := by decide +kernel
  have commands : List.Forall₂ Command.Respells
      [.create 0 (some 0) 0 0 plainOptions,.regenerate 0,.host 0 (.file plainContext.config.outputPath)]
      [.create 0 (some 0) 0 0 looseOptions,.regenerate 0,.host 0 (.file ⟨"/p/src//i18n.d.ts"⟩)] :=
    .cons (.create 0 (some 0) 0 0 looseOptions_respells)
      (.cons (.regenerate 0) (.cons (.host 0 (.file paths)) .nil))
  obtain ⟨_,⟨replies,v⟩,left,right,both⟩ | ⟨left,-⟩ :=
    (carryOut_respells .copying 0 quiet commands vacant_respells).casework
  · cases left.symm.trans plain
    obtain ⟨replied,-⟩ := both
    have same : replies = [.service 0,.done,.text (some "a: b")] := by
      rcases replied with - | ⟨service,- | ⟨done,- | ⟨text,- | -⟩⟩⟩
      cases service
      cases done
      cases text
      rfl
    exact ⟨v,right.trans (by rw [same])⟩
  · cases left.symm.trans plain

end Loose
end Phrasebook
