import Phrasebook.Proofs.Respelling.Host

/-! Changes that are made alike to two worlds that differ in the spelling of paths leave two such worlds. -/
namespace Phrasebook

structure Context.Respells (a b : Context) : Prop where
  host : a.host = b.host
  logger : a.logger = b.logger
  config : a.config.Respells b.config

theorem Session.Respells.context {a b : Session} (sessions : a.Respells b) :
    Option.Rel Context.Respells a.context? b.context? := by
  rw [Session.context?,Session.context?,sessions.host,sessions.logger]
  cases b.host with
  | none => exact .none
  | some host => exact sessions.config.bind fun _ _ config => .some ⟨rfl,rfl,config⟩

theorem Hook.Respells.wrap {hook hook' : Hook} (hooks : hook.Respells hook') {layer layer' : Layer}
    (layers : layer.Respells layer') : Option.Rel Hook.Respells (hook.wrap? layer) (hook'.wrap? layer') := by
  have present : hook.hasResolver = hook'.hasResolver := hooks.baseline.isSome_eq
  rw [Hook.wrap?,Hook.wrap?,present]
  split
  · exact .some {hooks with layers := .cons layers hooks.layers}
  · exact .none

namespace World.Respells

variable {w w' : World MemoryHost} (worlds : w.Respells w') {s h : Nat}

include worlds

theorem record {entry entry' : Entry} (entries : entry.Respells entry') :
    (w.record entry).Respells (w'.record entry') :=
  {worlds with trace := append_of_forall₂ worlds.trace (.cons entries .nil)}

theorem modify {f g : Session → Session}
    (change : (w.session s).Respells (w'.session s) → (f (w.session s)).Respells (g (w'.session s))) :
    (w.modify s f).Respells (w'.modify s g) := by
  refine {worlds with session := fun t => ?_}
  rw [session_modify,session_modify]
  split
  next here => subst here; exact change (worlds.session s)
  · exact worlds.session t

theorem reach {milestone milestone' : Milestone} {f g : Session → Session} (milestones : milestone.Respells milestone')
    (change : (w.session s).Respells (w'.session s) → (f (w.session s)).Respells (g (w'.session s))) :
    (w.reach s milestone f).Respells (w'.reach s milestone' g) :=
  (worlds.modify change).record (.reached s milestones)

theorem setHost {state state' : MemoryHost} (states : state.Respells state') :
    (w.setHost h state).Respells (w'.setHost h state') := by
  refine {worlds with host := fun g => ?_}
  rw [host_setHost,host_setHost]
  split
  · exact states
  · exact worlds.host g

theorem setHook {i : Nat} {hook hook' : Hook} (hooks : hook.Respells hook') :
    (w.setHook i hook).Respells (w'.setHook i hook') := by
  refine {worlds with hook := fun j => ?_}
  simp only [World.setHook,Slots.get_put]
  split
  · exact hooks
  · exact worlds.hook j

theorem renewSink : (w.renewSink s).Respells (w'.renewSink s) := by
  have counted : World.Respells {w with sinks := w.sinks + 1} {w' with sinks := w'.sinks + 1} :=
    {worlds with sinks := congrArg (· + 1) worlds.sinks}
  exact counted.modify fun sessions => {sessions with sink := congrArg some worlds.sinks}

theorem watches (owner : Subscriber) : List.Forall₂ Handle.Respells (w.watches owner) (w'.watches owner) := by
  cases owner with
  | session s => exact (worlds.session s).watches
  | recorder r => exact worlds.recorder r

theorem setWatches (owner : Subscriber) {handles handles' : List Handle}
    (related : List.Forall₂ Handle.Respells handles handles') :
    (w.setWatches owner handles).Respells (w'.setWatches owner handles') := by
  cases owner with
  | session s =>
    have files := map_of_forall₂ (S := Path.Respells) related fun _ _ handle => handle.path
    exact worlds.reach (.watching files) fun sessions => {sessions with watches := related}
  | recorder r =>
    refine {worlds with recorder := fun q => ?_}
    simp only [World.setWatches,Slots.get_put]
    split
    · exact related
    · exact worlds.recorder q

theorem close {handle handle' : Handle} (handles : handle.Respells handle') :
    (w.close handle).Respells (w'.close handle') := by
  rw [World.close,World.close,handles.host,handles.watch]
  exact (worlds.setHost ((worlds.host _).close)).record (.closed handles.path)

theorem closeAll {handles handles' : List Handle} (related : List.Forall₂ Handle.Respells handles handles') :
    (w.closeAll handles).Respells (w'.closeAll handles') := by
  induction related generalizing w w' with
  | nil => exact worlds
  | cons first _ ih => exact ih (worlds.close first)

theorem unwatch (owner : Subscriber) : (w.unwatch owner).Respells (w'.unwatch owner) :=
  (worlds.closeAll (worlds.watches owner)).setWatches owner .nil

theorem hold : (w.hold s).Respells (w'.hold s) := {worlds with holds := congrArg (s :: ·) worlds.holds}

theorem leave : (w.leave s).Respells (w'.leave s) := {worlds with holds := congrArg (·.erase s) worlds.holds}

theorem gone : w.gone s = w'.gone s := by rw [World.gone,World.gone,(worlds.session s).dropped,worlds.holds]

theorem release : (w.release s).Respells (w'.release s) := by
  rw [World.release,World.release,worlds.gone]
  split
  · exact worlds.unwatch _
  · exact worlds

theorem openAll (owner : Subscriber) {files files' : List Path} {opened opened' : List Handle}
    (paths : List.Forall₂ Path.Respells files files') (before : List.Forall₂ Handle.Respells opened opened') :
    Both (Except.Rel HostFault.Respells (List.Forall₂ Handle.Respells)) World.Respells
      (World.openAll owner h files opened w) (World.openAll owner h files' opened' w') := by
  induction paths generalizing opened opened' w w' with
  | nil => exact ⟨.ok before,worlds⟩
  | cons path _ ih =>
    obtain ⟨_,_,left,right,faults⟩ | ⟨⟨id,state⟩,⟨_,state'⟩,left,right,same,states⟩ :=
      ((worlds.host h).watch path owner).casework
    · simp only [World.openAll,Host.watch,left,right]
      exact ⟨.error faults,worlds.closeAll before⟩
    · obtain rfl : id = _ := same
      simp only [World.openAll,Host.watch,left,right]
      exact ih ((worlds.setHost states).record (.opened path)) (append_of_forall₂ before (.cons ⟨rfl,rfl,path⟩ .nil))

theorem rewatch (owner : Subscriber) {files files' : List Path} (paths : List.Forall₂ Path.Respells files files') :
    Both (Except.Rel HostFault.Respells (· = ·)) World.Respells (w.rewatch owner h files)
      (w'.rewatch owner h files') := by
  have opens := (worlds.unwatch owner).openAll (h := h) owner paths .nil
  unfold World.rewatch
  generalize World.openAll owner h files [] (w.unwatch owner) = x at opens ⊢
  generalize World.openAll owner h files' [] (w'.unwatch owner) = y at opens ⊢
  obtain ⟨result,u⟩ := x
  obtain ⟨result',u'⟩ := y
  obtain ⟨results,after⟩ := opens
  cases results with
  | error faults => exact ⟨.error faults,after⟩
  | ok handles =>
    refine ⟨.ok ?_,after.setWatches owner handles⟩
    rw [handles.length_eq,(worlds.watches owner).length_eq]

end World.Respells

/-- As many answers as names, each with its name. -/
theorem Answers.zip_fit {answers answers' : Answers} (names : List String) (related : answers.Respells answers') :
    List.Forall₂ (Both (· = ·) (Option.Rel Resolution.Respells)) (names.zip (answers.fit names.length))
      (names.zip (answers'.fit names.length)) := by
  have fits : List.Forall₂ (Option.Rel Resolution.Respells) (answers.fit names.length) (answers'.fit names.length) :=
    List.forall₂_take _ (append_of_forall₂ related (List.forall₂_same.mpr fun found member => by
      rw [(List.mem_replicate.mp member).2]
      exact .none))
  generalize answers.fit names.length = found at fits ⊢
  generalize answers'.fit names.length = found' at fits ⊢
  induction fits generalizing names with
  | nil => cases names <;> exact .nil
  | cons first _ ih =>
    cases names with
    | nil => exact .nil
    | cons name names => exact .cons ⟨rfl,first⟩ (ih names)

theorem Session.respells_self (session : Session) : session.Respells session := by
  have config (config : Option Config) : Option.Rel Config.Respells config config := by
    cases config with
    | none => exact .none
    | some config => exact .some ⟨rfl,.refl _,.refl _,rfl⟩
  have last (last : Option Status) : Option.Rel Status.Respells last last := by
    cases last with
    | none => exact .none
    | some status =>
      cases status with
      | written report => exact .some (.written ⟨.refl _,rfl,rfl⟩)
      | failed message => exact .some (.failed (.same message))
  exact ⟨rfl,rfl,rfl,rfl,rfl,config _,List.forall₂_same.mpr fun _ _ => ⟨rfl,rfl,.refl _⟩,rfl,rfl,rfl,rfl,last _,rfl,rfl⟩

/-- The same world twice. -/
theorem World.respells_self {w : World MemoryHost} (hooks : ∀ i, (w.hooks.get i).Respells (w.hooks.get i)) :
    w.Respells w where
  host _ := .refl _
  hook := hooks
  session _ := Session.respells_self _
  recorder _ := List.forall₂_same.mpr fun _ _ => ⟨rfl,rfl,.refl _⟩
  holds := rfl
  sinks := rfl
  trace := List.forall₂_same.mpr fun _ _ => .same _

/-- The same locales, or the same fault. -/
theorem Toolchain.loadFile_respells (tools : Toolchain) {host host' : MemoryHost} {path path' : Path}
    (hosts : host.Respells host') (paths : path.Respells path') :
    Except.Rel RunFault.Respells (· = ·) (tools.loadFile host path) (tools.loadFile host' path') := by
  have read : Host.read? path host = Host.read? path' host' := hosts.read? paths
  rw [loadFile,loadFile,paths.nameOf?_eq,read]
  split
  · exact .error (.illFormed paths _)
  · split
    · exact .error (.unreadable paths)
    · split
      · exact .error (.illFormed paths _)
      · exact .ok rfl

theorem Toolchain.loadFiles_respells (tools : Toolchain) {host host' : MemoryHost} {files files' : List Path}
    (hosts : host.Respells host') (paths : List.Forall₂ Path.Respells files files') :
    Except.Rel RunFault.Respells (· = ·) (tools.loadFiles host files) (tools.loadFiles host' files') := by
  induction paths with
  | nil => exact .ok rfl
  | cons path _ ih =>
    refine (tools.loadFile_respells hosts path).bind fun entry _ same => ?_
    subst same
    refine ih.bind fun entries _ same => ?_
    subst same
    exact .ok rfl

theorem Toolchain.load_respells (tools : Toolchain) {host host' : MemoryHost} {directory directory' : Path}
    (hosts : host.Respells host') (directories : directory.Respells directory') :
    Except.Rel RunFault.Respells (· = ·) (tools.load directory host) (tools.load directory' host') := by
  obtain ⟨_,_,left,right,faults⟩ | ⟨_,_,left,right,files⟩ := (hosts.list directories).casework
  · simp only [load,Host.list,left,right]
    exact .error (.listing faults)
  · simp only [load,Host.list,left,right]
    exact tools.loadFiles_respells hosts files

end Phrasebook
