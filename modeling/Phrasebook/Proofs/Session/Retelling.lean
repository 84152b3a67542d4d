import Mathlib.Data.Option.Basic
import Phrasebook.Proofs.Session.Transparency

/-! What was heard before is of no account for what comes next. If a world has a longer past, everything that is
carried out from there on gives the same replies and leaves the same world, as long as collaborators do not look
back either: `Environment.Forgetful.perform`, `Environment.Forgetful.carryOut`. -/
namespace Phrasebook

namespace World

/-- The same world with a longer past. -/
def recalling (past : List Entry) (w : World MemoryHost) : World MemoryHost := {w with trace := past ++ w.trace}

section Recalling

variable (past : List Entry) (w : World MemoryHost) (s h : Nat) (owner : Subscriber)

@[simp] theorem session_recalling : (w.recalling past).session s = w.session s := (rfl)
@[simp] theorem host_recalling : (w.recalling past).host h = w.host h := (rfl)
@[simp] theorem hooks_recalling : (w.recalling past).hooks = w.hooks := (rfl)
@[simp] theorem gone_recalling : (w.recalling past).gone s = w.gone s := (rfl)
@[simp] theorem hold_recalling : (w.recalling past).hold s = (w.hold s).recalling past := (rfl)
@[simp] theorem leave_recalling : (w.recalling past).leave s = (w.leave s).recalling past := (rfl)
@[simp] theorem watches_recalling : (w.recalling past).watches owner = w.watches owner := by cases owner <;> rfl

@[simp] theorem record_recalling (entry : Entry) :
    (w.recalling past).record entry = (w.record entry).recalling past := by simp [recalling,record]

@[simp] theorem modify_recalling (f : Session → Session) :
    (w.recalling past).modify s f = (w.modify s f).recalling past := rfl

@[simp] theorem setHost_recalling (state : MemoryHost) :
    (w.recalling past).setHost h state = (w.setHost h state).recalling past := rfl

@[simp] theorem setHook_recalling (hook : Hook) :
    (w.recalling past).setHook h hook = (w.setHook h hook).recalling past := rfl

@[simp] theorem renewSink_recalling : (w.recalling past).renewSink s = (w.renewSink s).recalling past := rfl

@[simp] theorem reach_recalling (milestone : Milestone) (f : Session → Session) :
    (w.recalling past).reach s milestone f = (w.reach s milestone f).recalling past := by simp [reach]

@[simp] theorem setWatches_recalling (handles : List Handle) :
    (w.recalling past).setWatches owner handles = (w.setWatches owner handles).recalling past := by
  cases owner with
  | session s => simp [setWatches]
  | recorder r => rfl

@[simp] theorem close_recalling (handle : Handle) :
    (w.recalling past).close handle = (w.close handle).recalling past := by simp [close]

@[simp] theorem closeAll_recalling (handles : List Handle) :
    (w.recalling past).closeAll handles = (w.closeAll handles).recalling past := by
  induction handles generalizing w with
  | nil => rfl
  | cons handle rest ih =>
    change ((w.recalling past).close handle).closeAll rest = ((w.close handle).closeAll rest).recalling past
    rw [close_recalling,ih]

@[simp] theorem unwatch_recalling : (w.recalling past).unwatch owner = (w.unwatch owner).recalling past := by
  simp [unwatch]

@[simp] theorem release_recalling : (w.recalling past).release s = (w.release s).recalling past := by
  simp only [release,gone_recalling,unwatch_recalling]
  split <;> rfl

theorem openAll_recalling (files : List Path) (opened : List Handle) :
    openAll owner h files opened (w.recalling past) =
      ((openAll owner h files opened w).1,(openAll owner h files opened w).2.recalling past) := by
  induction files generalizing opened w with
  | nil => rfl
  | cons file files ih =>
    simp only [openAll,host_recalling]
    split
    · simp only [setHost_recalling,record_recalling,ih]
    · simp only [closeAll_recalling]

@[simp] theorem rewatch_recalling (files : List Path) : (w.recalling past).rewatch owner h files =
    ((w.rewatch owner h files).1,(w.rewatch owner h files).2.recalling past) := by
  simp only [rewatch,unwatch_recalling,openAll_recalling,watches_recalling]
  cases openAll owner h files [] (w.unwatch owner) with
  | mk result u =>
    cases result with
    | ok opened => simp
    | error fault => rfl

end Recalling
end World

/-- An outcome in a world with a longer past. -/
def recalled {α : Type} (past : List Entry) (outcome : α × World MemoryHost) : α × World MemoryHost :=
  (outcome.1,outcome.2.recalling past)

/-- Collaborators that do not look back. -/
def Environment.Forgetful (env : Environment MemoryHost) : Prop :=
  ∀ past entry w, env.respond entry (World.recalling past w) = (env.respond entry w).map (World.recalling past)

namespace Environment.Forgetful

variable {env : Environment MemoryHost} (forgetful : env.Forgetful) (past : List Entry) (w : World MemoryHost)
  (s h : Nat)

include forgetful

theorem announce (entry : Entry) :
    env.announce entry (w.recalling past) = (env.announce entry w).map (World.recalling past) := by
  rw [Environment.announce,World.record_recalling,forgetful,Environment.announce]

theorem log (logger : Option Nat) (line : String) :
    env.log logger line (w.recalling past) = (env.log logger line w).map (World.recalling past) := by
  cases logger with
  | none => rfl
  | some logger => exact forgetful.announce past w _

theorem emit (event : Event) :
    env.emit s event (w.recalling past) = (env.emit s event w).map (World.recalling past) := by
  simp only [Environment.emit,World.session_recalling]
  split
  · exact forgetful.announce past w _
  · rfl

theorem announceCall (generator : Option Nat) :
    env.announceCall generator (w.recalling past) = (env.announceCall generator w).map (World.recalling past) := by
  cases generator with
  | none => rfl
  | some s => simp [Environment.announceCall,forgetful.announce]

theorem render (generator : Option Nat) (config : Config) (target : Target) :
    env.render generator h config target (w.recalling past) =
      (env.render generator h config target w).map (recalled past) := by
  simp only [Environment.render,World.host_recalling]
  cases env.toolchain.load config.localesDirectory (w.host h) with
  | error fault => rfl
  | ok entries =>
    simp only [forgetful.announceCall,Option.bind_eq_bind,Option.bind_map,Option.map_bind]
    refine Option.bind_congr fun called _ => ?_
    simp only [Function.comp_apply]
    split <;> rfl

omit forgetful in
theorem save_recalling (output : Path) (rendered : Except RunFault (List Locale.Entry × String)) :
    save h output rendered (w.recalling past) = recalled past (save h output rendered w) := by
  unfold Environment.save
  split
  · rfl
  · simp only [World.host_recalling]
    split <;> rfl

theorem produce (generator logger : Option Nat) (config : Config) :
    env.produce generator h logger config (w.recalling past) =
      (env.produce generator h logger config w).map (recalled past) := by
  simp only [Environment.produce,forgetful.log,Option.bind_eq_bind,Option.bind_map,Option.map_bind]
  refine Option.bind_congr fun logged _ => ?_
  simp only [Function.comp_apply,forgetful.render,Option.bind_map,Option.map_bind]
  refine Option.bind_congr fun outcome _ => ?_
  obtain ⟨rendered,called⟩ := outcome
  simp only [recalled,save_recalling]
  cases save h config.outputPath rendered called with
  | mk result saved =>
    cases result <;>
      simp [forgetful.log,Option.bind_map,Option.map_bind,Function.comp_def,recalled]

theorem runOnce : env.runOnce s (w.recalling past) = (env.runOnce s w).map (World.recalling past) := by
  simp only [Environment.runOnce,World.session_recalling]
  cases (w.session s).context? with
  | none => rfl
  | some context =>
    simp only [World.start,World.reach_recalling,forgetful.produce,Option.bind_eq_bind,Option.bind_map,Option.map_bind]
    refine Option.bind_congr fun outcome _ => ?_
    obtain ⟨result,made⟩ := outcome
    cases result <;>
      simp [forgetful.emit,Option.bind_map,Option.map_bind,recalled,World.finish]

theorem drain_of_some {w v : World MemoryHost} (run : env.drain s w = some v) :
    env.drain s (w.recalling past) = some (v.recalling past) := by
  refine Environment.drain.partial_correctness env s
    (fun w v => env.drain s (w.recalling past) = some (v.recalling past)) ?_ w v run
  intro drain ih w v run
  rw [Environment.drain,World.session_recalling]
  split at run
  next asked =>
    simp only [Option.bind_eq_bind,Option.bind_eq_some_iff] at run
    obtain ⟨next,once,run⟩ := run
    rw [if_pos asked,World.heed,World.modify_recalling,forgetful.runOnce]
    change ((env.runOnce s (w.heed s)).map (World.recalling past)).bind _ = _
    rw [once]
    exact ih _ _ run
  next settled =>
    cases run
    rw [if_neg settled]

-- The induction is on the run in the world with the other past, so the one without it is generalized.
theorem drain_to_some {w v : World MemoryHost} (run : env.drain s (w.recalling past) = some v) :
    ∃ u, env.drain s w = some u ∧ v = u.recalling past := by
  refine Environment.drain.partial_correctness env s
    (fun x v => ∀ w : World MemoryHost, x = w.recalling past →
      ∃ u, env.drain s w = some u ∧ v = u.recalling past) ?_ _ v run w rfl
  rintro drain ih _ v run w rfl
  rw [Environment.drain]
  rw [World.session_recalling] at run
  split at run
  next asked =>
    simp only [World.heed,World.modify_recalling,forgetful.runOnce,Option.bind_eq_bind,Option.bind_map,
      Option.bind_eq_some_iff] at run
    obtain ⟨next,once,run⟩ := run
    obtain ⟨u,drained,same⟩ := ih _ _ run next rfl
    refine ⟨u,?_,same⟩
    rw [if_pos asked]
    change (env.runOnce s (w.heed s)).bind _ = _
    rw [World.heed,once]
    exact drained
  next settled =>
    cases run
    rw [if_neg settled]
    exact ⟨w,rfl,rfl⟩

/-- Two loops that follow each other come to the same. -/
theorem drain : env.drain s (w.recalling past) = (env.drain s w).map (World.recalling past) := by
  refine Option.ext fun v => ?_
  rw [Option.map_eq_some_iff]
  constructor
  · intro run
    obtain ⟨u,drained,same⟩ := forgetful.drain_to_some past s run
    exact ⟨u,drained,same.symm⟩
  · rintro ⟨u,drained,rfl⟩
    exact forgetful.drain_of_some past s drained

theorem attempt_of_some {w v : World MemoryHost} (run : env.attempt s w = some v) :
    env.attempt s (w.recalling past) = some (v.recalling past) := by
  refine Environment.attempt.partial_correctness env s
    (fun w v => env.attempt s (w.recalling past) = some (v.recalling past)) ?_ w v run
  intro attempt ih w v run
  rw [Environment.attempt,World.session_recalling]
  split at run
  next busy =>
    cases run
    rw [if_pos busy]
  next idle =>
    simp only [Option.bind_eq_bind,Option.bind_eq_some_iff] at run
    obtain ⟨drained,drain,run⟩ := run
    rw [if_neg idle,World.lock,World.modify_recalling,forgetful.drain]
    change ((env.drain s (w.lock s)).map (World.recalling past)).bind _ = _
    rw [drain]
    change (if ((drained.unlock s).session s).requested then _ else _) = _
    split at run
    next again => rw [if_pos again]; exact ih _ _ run
    next settled => cases run; rw [if_neg settled]; rfl

theorem attempt_to_some {w v : World MemoryHost} (run : env.attempt s (w.recalling past) = some v) :
    ∃ u, env.attempt s w = some u ∧ v = u.recalling past := by
  refine Environment.attempt.partial_correctness env s
    (fun x v => ∀ w : World MemoryHost, x = w.recalling past →
      ∃ u, env.attempt s w = some u ∧ v = u.recalling past) ?_ _ v run w rfl
  rintro attempt ih _ v run w rfl
  rw [Environment.attempt]
  rw [World.session_recalling] at run
  split at run
  next busy =>
    cases run
    rw [if_pos busy]
    exact ⟨w,rfl,rfl⟩
  next idle =>
    simp only [World.lock,World.modify_recalling,forgetful.drain,Option.bind_eq_bind,Option.bind_map,
      Option.bind_eq_some_iff] at run
    obtain ⟨drained,drain,run⟩ := run
    rw [if_neg idle]
    change ∃ u, (env.drain s (w.lock s)).bind _ = some u ∧ _
    rw [World.lock,drain]
    change (if ((drained.unlock s).session s).requested then _ else _) = _ at run
    change ∃ u, (if ((drained.unlock s).session s).requested then _ else _) = some u ∧ _
    split at run
    next again => rw [if_pos again]; exact ih _ _ run _ rfl
    next settled => cases run; rw [if_neg settled]; exact ⟨_,rfl,rfl⟩

theorem attempt : env.attempt s (w.recalling past) = (env.attempt s w).map (World.recalling past) := by
  refine Option.ext fun v => ?_
  rw [Option.map_eq_some_iff]
  constructor
  · intro run
    obtain ⟨u,made,same⟩ := forgetful.attempt_to_some past s run
    exact ⟨u,made,same.symm⟩
  · rintro ⟨u,made,rfl⟩
    exact forgetful.attempt_of_some past s made

theorem regenerate : env.regenerate s (w.recalling past) = (env.regenerate s w).map (World.recalling past) := by
  rw [Environment.regenerate,World.request,World.reach_recalling,forgetful.attempt]
  rfl

theorem install : env.install s (w.recalling past) = (env.install s w).map (World.recalling past) := by
  simp only [Environment.install,World.session_recalling,World.hooks_recalling,World.modify_recalling,
    World.hooks_modify]
  split
  next context hook ready handed =>
    split
    · rfl
    · split <;>
        simp only [World.setHook_recalling,forgetful.log,Option.bind_eq_bind,Option.bind_map,Option.map_bind] <;>
        refine Option.bind_congr fun told _ => ?_ <;>
        simp only [Function.comp_apply,World.activate,World.reach_recalling,forgetful.emit]
  · rfl

theorem create (host : Option Nat) (hook logger : Nat) (options : Json) :
    env.create s host hook logger options (w.recalling past) =
      (env.create s host hook logger options w).map (World.recalling past) := by
  have hosts : host.map (w.recalling past).host = host.map w.host := rfl
  simp only [Environment.create,World.session_recalling,World.modify_recalling,forgetful.log,hosts]
  split
  · rfl
  · split
    all_goals
      simp only [Option.bind_eq_bind,Option.bind_map,Option.map_bind]
      refine Option.bind_congr fun told _ => ?_
      simp only [Function.comp_apply]
    · exact forgetful.emit past told s _
    · simp only [World.adopt,World.reach_recalling,forgetful.emit,Option.bind_map,Option.map_bind]
      refine Option.bind_congr fun announced _ => ?_
      simp only [Function.comp_apply,forgetful.install]

theorem configure (options : Json) : env.configure s options (w.recalling past) =
    (env.configure s options w).map (recalled past) := by
  simp only [Environment.configure,World.session_recalling,forgetful.log,Option.bind_eq_bind,Option.bind_map,
    Option.map_bind]
  refine Option.bind_congr fun told _ => ?_
  have hosts : (told.session s).host.map (told.recalling past).host = (told.session s).host.map told.host := rfl
  simp only [Function.comp_apply,World.session_recalling,hosts]
  split
  · simp [forgetful.log,Option.bind_map,Option.map_bind,Function.comp_def,recalled]
  · split
    · simp only [forgetful.log,Option.bind_map,Option.map_bind]
      refine Option.bind_congr fun rejected _ => ?_
      simp [forgetful.emit,Option.bind_map,Option.map_bind,Function.comp_def,recalled]
    · simp only [World.adopt,World.reach_recalling,forgetful.emit,Option.bind_map,Option.map_bind]
      refine Option.bind_congr fun announced _ => ?_
      simp only [Function.comp_apply,forgetful.install,Option.bind_map,Option.map_bind]
      refine Option.bind_congr fun hooked _ => ?_
      simp [forgetful.regenerate,Option.bind_map,recalled]

theorem refreshWatches (context : Context) : env.refreshWatches s context (w.recalling past) =
    (env.refreshWatches s context w).map (recalled past) := by
  simp only [Environment.refreshWatches,World.host_recalling,World.session_recalling]
  split
  · rfl
  · simp only [forgetful.log,Option.bind_eq_bind,Option.bind_map,Option.map_bind]
    refine Option.bind_congr fun closing _ => ?_
    simp only [Function.comp_apply,forgetful.log,Option.bind_map,Option.map_bind]
    refine Option.bind_congr fun opening _ => ?_
    simp only [World.rewatch_recalling]
    cases opening.rewatch (.session s) context.host _ with
    | mk result opened =>
      cases result with
      | error fault => rfl
      | ok refreshed =>
        simp only [forgetful.log,Option.bind_map,Option.map_bind]
        refine Option.bind_congr fun told _ => ?_
        simp [forgetful.emit,Option.bind_map,Option.map_bind,Function.comp_def,recalled]

theorem refresh : env.refresh s (w.recalling past) = (env.refresh s w).map (recalled past) := by
  simp only [Environment.refresh,World.session_recalling,World.host_recalling]
  split
  · rfl
  · split
    · rfl
    next context ready =>
      split
      · rfl
      · split
        · rfl
        · split
          · rfl
          · simp only [forgetful.log,Option.bind_eq_bind,Option.bind_map,Option.map_bind]
            refine Option.bind_congr fun told _ => ?_
            simp only [Function.comp_apply,forgetful.regenerate,Option.bind_map,Option.map_bind]
            refine Option.bind_congr fun made _ => ?_
            simp only [Function.comp_apply,forgetful.refreshWatches,Option.bind_map]
            refine Option.bind_congr fun outcome _ => ?_
            obtain ⟨result,watched⟩ := outcome
            cases result <;> rfl

theorem dispose : env.dispose s (w.recalling past) = (env.dispose s w).map (World.recalling past) := by
  simp only [Environment.dispose,World.retire,World.session_recalling,World.reach_recalling,World.unwatch_recalling,
    forgetful.log]
  split
  · rfl
  · simp only [Option.bind_eq_bind,Option.bind_map,Option.map_bind]
    refine Option.bind_congr fun told _ => ?_
    simp only [Function.comp_apply,forgetful.emit]

theorem drop : env.drop s (w.recalling past) = (env.drop s w).map (World.recalling past) := by
  simp [Environment.drop,forgetful.dispose,Option.bind_map,Option.map_bind]

theorem fileChanged (path : Path) :
    env.fileChanged s path (w.recalling past) = (env.fileChanged s path w).map (World.recalling past) := by
  simp only [Environment.fileChanged,World.gone_recalling,World.hold_recalling,World.record_recalling,forgetful.emit]
  split
  · rfl
  · simp only [Option.bind_eq_bind,Option.bind_map,Option.map_bind]
    refine Option.bind_congr fun told _ => ?_
    simp [forgetful.regenerate,Option.bind_map,Option.map_bind]

omit forgetful in
theorem answer_recalled (resolution : Option Resolution) (rest : Option (Except HostFault Answers × World MemoryHost)) :
    answer resolution (rest.map (recalled past)) = (answer resolution rest).map (recalled past) := by
  cases rest <;> rfl

theorem intercept (file : Path) (found : List (String × Option Resolution)) :
    env.intercept s file found (w.recalling past) = (env.intercept s file found w).map (recalled past) := by
  induction found generalizing w with
  | nil => rfl
  | cons first rest ih =>
    obtain ⟨name,resolution⟩ := first
    simp only [Environment.intercept,World.session_recalling]
    split
    · rfl
    next context ready =>
      split
      · rw [ih,answer_recalled]
      · simp only [forgetful.log,Option.bind_eq_bind,Option.bind_map,Option.map_bind]
        refine Option.bind_congr fun told _ => ?_
        simp only [Function.comp_apply,World.host_recalling]
        split
        · rw [World.record_recalling,ih,answer_recalled]
        · simp only [forgetful.regenerate,Option.bind_map,Option.map_bind]
          refine Option.bind_congr fun made _ => ?_
          simp only [Function.comp_apply,forgetful.refreshWatches,Option.bind_map,Option.map_bind]
          refine Option.bind_congr fun outcome _ => ?_
          obtain ⟨result,watched⟩ := outcome
          cases result with
          | error fault => rfl
          | ok =>
            simp only [Function.comp_apply,recalled,forgetful.emit,Option.bind_map,Option.map_bind]
            refine Option.bind_congr fun emitted _ => ?_
            simp only [ih,answer_recalled]

theorem ask (baseline : Resolver) (query : Query) (layers : List Layer) :
    env.ask baseline query layers (w.recalling past) = (env.ask baseline query layers w).map (recalled past) := by
  induction layers with
  | nil => simp [Environment.ask,recalled]
  | cons layer inner ih =>
    simp only [Environment.ask,ih,Option.bind_eq_bind,Option.bind_map,Option.map_bind]
    refine Option.bind_congr fun outcome _ => ?_
    obtain ⟨result,asked⟩ := outcome
    cases result with
    | error fault => rfl
    | ok answers =>
      cases layer with
      | adjust f => rfl
      | session s =>
        simp [recalled,forgetful.intercept,Option.bind_map,Option.map_bind,Function.comp_def]

theorem resolve (hook : Nat) (query : Query) :
    env.resolve hook query (w.recalling past) = (env.resolve hook query w).map (recalled past) := by
  simp only [Environment.resolve,World.hooks_recalling]
  split
  · rfl
  · exact forgetful.ask past w _ query _

theorem fireAll (watches : List Watch) :
    env.fireAll watches (w.recalling past) = (env.fireAll watches w).map (World.recalling past) := by
  induction watches generalizing w with
  | nil => rfl
  | cons watch rest ih =>
    have fired : env.fire watch (w.recalling past) = (env.fire watch w).map (World.recalling past) := by
      simp only [Environment.fire]
      split
      · exact forgetful.fileChanged past w _ _
      · rw [World.record_recalling]; rfl
    simp only [Environment.fireAll,fired,Option.bind_eq_bind,Option.bind_map,Option.map_bind]
    refine Option.bind_congr fun next _ => ?_
    exact ih next

theorem notify (path : Path) : env.notify h path (w.recalling past) = (env.notify h path w).map (recalled past) := by
  simp [Environment.notify,forgetful.fireAll,Option.bind_map,Option.map_bind,Function.comp_def,recalled]

omit forgetful in
theorem onSession_recalled {f : World MemoryHost → Option (Reply × World MemoryHost)}
    (same : f (w.recalling past) = (f w).map (recalled past)) :
    onSession s (w.recalling past) f = (onSession s w f).map (recalled past) := by
  simp only [onSession,World.session_recalling]
  split
  · rfl
  · exact same

/-- Every command is carried out alike, and gets the same reply. -/
theorem perform (command : Command) :
    env.perform command (w.recalling past) = (env.perform command w).map (recalled past) := by
  cases command with
  | host h command => rfl
  | load | watched | hookState => simp [Environment.perform,recalled]
  | unwatch r | dropRecorder r => simp [Environment.perform,recalled]
  | rewatch r h files => simp [Environment.perform,recalled]
  | edit h path content =>
    simp [Environment.perform,forgetful.notify,Option.bind_map,Option.map_bind,Function.comp_def,recalled]
  | notify h path =>
    simp [Environment.perform,forgetful.notify,Option.bind_map,Option.map_bind,Function.comp_def,recalled]
  | render h config target =>
    simp [Environment.perform,forgetful.render,Option.bind_map,Option.map_bind,Function.comp_def,recalled]
  | generate h logger config =>
    simp [Environment.perform,forgetful.produce,Option.bind_map,Option.map_bind,Function.comp_def,recalled]
  | resolve hook query =>
    simp [Environment.perform,forgetful.resolve,Option.bind_map,Option.map_bind,Function.comp_def,recalled]
  | create s host hook logger options =>
    simp only [Environment.perform]
    refine onSession_recalled past w s ?_
    simp [forgetful.create,Option.bind_map,Option.map_bind,Function.comp_def,recalled]
  | configure s options =>
    simp only [Environment.perform]
    refine onSession_recalled past w s ?_
    simp [forgetful.configure,Option.bind_map,Option.map_bind,Function.comp_def,recalled]
  | regenerate s =>
    simp only [Environment.perform]
    refine onSession_recalled past w s ?_
    simp [forgetful.regenerate,Option.bind_map,Option.map_bind,Function.comp_def,recalled]
  | refresh s =>
    simp only [Environment.perform]
    refine onSession_recalled past w s ?_
    simp [forgetful.refresh,Option.bind_map,Option.map_bind,Function.comp_def,recalled]
  | dispose s =>
    simp only [Environment.perform]
    refine onSession_recalled past w s ?_
    simp [forgetful.dispose,Option.bind_map,Option.map_bind,Function.comp_def,recalled]
  | renewSink s =>
    simp only [Environment.perform]
    exact onSession_recalled past w s rfl
  | drop s =>
    simp only [Environment.perform]
    refine onSession_recalled past w s ?_
    simp [forgetful.drop,Option.bind_map,Option.map_bind,Function.comp_def,recalled]

theorem carryOut (commands : List Command) :
    env.carryOut commands (w.recalling past) = (env.carryOut commands w).map (recalled past) := by
  induction commands generalizing w with
  | nil => rfl
  | cons command rest ih =>
    simp only [Environment.carryOut,forgetful.perform,Option.bind_eq_bind,Option.bind_map,Option.map_bind]
    refine Option.bind_congr fun outcome _ => ?_
    obtain ⟨reply,next⟩ := outcome
    simp [recalled,ih,Option.bind_map,Option.map_bind,Function.comp_def]

theorem follow (script : Script) :
    env.follow script (w.recalling past) = (env.follow script w).map (World.recalling past) := by
  induction script generalizing w with
  | done => rfl
  | issue command next ih =>
    simp only [Environment.follow,forgetful.perform,Option.bind_eq_bind,Option.bind_map,Option.map_bind]
    refine Option.bind_congr fun outcome _ => ?_
    obtain ⟨reply,performed⟩ := outcome
    simp [recalled,ih]

end Environment.Forgetful

/-- Whatever is carried out from now on gets the same replies in both worlds, and leaves both the same but for what
was heard up to now. -/
def World.Alike (w v : World MemoryHost) : Prop :=
  ∀ env : Environment MemoryHost, env.Forgetful → ∀ commands, ∃ outcome : Option (List Reply × World MemoryHost),
    env.carryOut commands w = outcome.map (recalled w.trace) ∧
    env.carryOut commands v = outcome.map (recalled v.trace)

theorem World.alike_trace (w : World MemoryHost) (trace : List Entry) : w.Alike {w with trace := trace} := by
  intro env forgetful commands
  have past (past : List Entry) : {w with trace := past} = World.recalling past {w with trace := []} := by
    simp [World.recalling]
  refine ⟨env.carryOut commands {w with trace := []},?_,?_⟩
  · rw [← forgetful.carryOut,← past]
  · rw [← forgetful.carryOut,← past]

/-- What such scripts do does not depend on what was heard before. -/
def Behaviour.Forgetful (behaviour : Behaviour) : Prop :=
  ∀ past entry w, behaviour entry (World.recalling past w) = behaviour entry w

theorem Environment.scripted_forgetful {behaviour : Behaviour} (forgetful : behaviour.Forgetful) (tools : Toolchain)
    (depth : Nat) : (Environment.scripted tools behaviour depth).Forgetful := by
  induction depth with
  | zero =>
    intro past entry w
    simp only [Environment.scripted,forgetful past entry w]
    split <;> rfl
  | succ depth ih =>
    intro past entry w
    simp only [Environment.scripted,forgetful past entry w]
    exact ih.follow past w _

end Phrasebook
