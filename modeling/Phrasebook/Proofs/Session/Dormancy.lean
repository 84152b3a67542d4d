import Phrasebook.Proofs.Session.Ruling

/-! A session without options, that nobody watches a file for. Whatever it is asked, it sleeps on: nothing is
written, watched or heard of, and resolution goes through it as if it were not there. -/
namespace Phrasebook

/-- Files and directories may differ, but nothing was written to the host. -/
structure MemoryHost.Unwritten (before after : MemoryHost) : Prop extends before.SameWatches after where
  writes : after.writes = before.writes

theorem MemoryHost.Unwritten.trans {a b c : MemoryHost} (first : a.Unwritten b) (next : b.Unwritten c) :
    a.Unwritten c :=
  ⟨first.toSameWatches.trans next.toSameWatches,next.writes.trans first.writes⟩

theorem MemoryHost.Unwritten.refl (host : MemoryHost) : host.Unwritten host := ⟨⟨rfl,rfl,rfl⟩,rfl⟩

/-- The answer of a resolver through a session that lies over it and sleeps, or through nothing. -/
def Hook.passed (hook : Hook) (query : Query) : Except HostFault Answers :=
  match hook.baseline with
  | none => .ok (query.names.map fun _ => none)
  | some baseline =>
    if hook.layers.isEmpty then baseline query else (baseline query).map (·.fit query.names.length)

/-- Commands that a session without options sleeps through. -/
def Command.Stirs (s : Nat) : Command → Prop
  | .regenerate t | .refresh t => t = s
  | .resolve _ _ | .edit _ _ _ | .notify _ _ => True
  | _ => False

/-- A command edits a file of a host. -/
def Command.Edits : Command → Nat → Path → Prop
  | .edit g edited _,h,path => h = g ∧ path.same edited = true
  | _,_,_ => False

namespace World

/-- What comes back when nothing comes of a command. -/
def reply (w : World MemoryHost) : Command → Reply
  | .create s _ _ _ _ => if (w.session s).dropped then .done else .service s
  | .configure s _ | .refresh s => if (w.session s).dropped then .done else .flag false
  | .notify _ _ => .count 0
  | .resolve hook query => Environment.hostReply ((w.hooks.get hook).passed query) .answers
  | _ => .done

/-- Nothing has come of a session, and no file differs but those that were edited. -/
structure Sleeps (s : Nat) (edited : Nat → Path → Prop) (a b : World MemoryHost) : Prop where
  own : ∃ requested, b.session s = {a.session s with requested := requested}
  hooks : b.hooks = a.hooks
  hosts : ∀ h, (a.host h).Unwritten (b.host h)
  files : ∀ h path, ¬edited h path → (b.host h).file? path = (a.host h).file? path
  emissions : b.emissions = a.emissions

/-- No run of a session without options is in flight, and no host watches a file. It lies over resolvers alone. -/
structure Dormant (s : Nat) (w : World MemoryHost) : Prop where
  bare : (w.session s).config = none
  idle : (w.session s).inFlight = false
  unwatched : (w.session s).watches = []
  hosts : ∀ h, (w.host h).watches = []
  layers : ∀ h, (w.hooks.get h).layers = [] ∨ (w.hooks.get h).layers = [.session s]

variable {s h : Nat} {edited more : Nat → Path → Prop} {a b c w : World MemoryHost}

namespace Sleeps

theorem refl (w : World MemoryHost) : Sleeps s edited w w :=
  ⟨⟨_,rfl⟩,rfl,fun _ => .refl _,fun _ _ _ => rfl,rfl⟩

theorem trans (first : Sleeps s edited a b) (next : Sleeps s edited b c) : Sleeps s edited a c where
  own := by
    obtain ⟨_,own⟩ := first.own
    obtain ⟨requested,later⟩ := next.own
    exact ⟨requested,by rw [later,own]⟩
  hooks := next.hooks.trans first.hooks
  hosts h := (first.hosts h).trans (next.hosts h)
  files h path same := (next.files h path same).trans (first.files h path same)
  emissions := next.emissions.trans first.emissions

theorem mono (sleeps : Sleeps s edited a b) (sub : ∀ h path, edited h path → more h path) : Sleeps s more a b :=
  {sleeps with files := fun h path same => sleeps.files h path (same ∘ sub h path)}

theorem record {entry : Entry} (silent : entry.emission? = none) : Sleeps s edited w (w.record entry) := by
  refine ⟨⟨_,rfl⟩,rfl,fun _ => .refl _,fun _ _ _ => rfl,?_⟩
  rw [emissions_record,silent]
  exact List.append_nil _

theorem say (logger : Option Nat) (line : String) : Sleeps s edited w (w.say logger line) := by
  cases logger with
  | none => exact refl w
  | some logger => exact record rfl

theorem setHost {state : MemoryHost} (same : (w.host h).Unwritten state)
    (files : ∀ path, ¬edited h path → state.file? path = (w.host h).file? path) :
    Sleeps s edited w (w.setHost h state) := by
  refine ⟨⟨_,rfl⟩,rfl,fun g => ?_,fun g path unedited => ?_,rfl⟩
  · rw [host_setHost]
    split
    next here => exact here ▸ same
    · exact .refl _
  · rw [host_setHost]
    split
    next here => subst here; exact files path unedited
    · rfl

/-- There is no watch to be closed. -/
theorem release (unwatched : (w.session s).watches = []) : Sleeps s edited w (w.release s) := by
  unfold World.release
  split
  · have nothing : w.watches (.session s) = [] := unwatched
    refine ⟨⟨(w.session s).requested,by simp [unwatch,← unwatched]⟩,w.hooks_unwatch _,fun h => ?_,fun h path _ => ?_,?_⟩
    · rw [unwatch,host_setWatches,nothing]
      exact .refl _
    · rw [unwatch,host_setWatches,nothing]
      rfl
    · rw [unwatch,nothing,setWatches,emissions_reach]
      rfl
  · exact refl w

end Sleeps

theorem Dormant.sleeps (dormant : a.Dormant s) (sleeps : Sleeps s edited a b) : b.Dormant s := by
  obtain ⟨_,own⟩ := sleeps.own
  exact ⟨by rw [own]; exact dormant.bare,by rw [own]; exact dormant.idle,by rw [own]; exact dormant.unwatched,
    fun h => (sleeps.hosts h).watches.trans (dormant.hosts h),fun h => by rw [sleeps.hooks]; exact dormant.layers h⟩

theorem Dormant.context? (dormant : w.Dormant s) : (w.session s).context? = none := by
  simp [Session.context?,dormant.bare]

section Asleep

variable (env : Environment MemoryHost) (dormant : w.Dormant s)

include dormant

/-- The request is heeded, and there is nothing to run. -/
theorem Dormant.regenerate : ∃ v, env.regenerate s w = some v ∧ Sleeps s edited w v := by
  have bare : ((((w.request s).lock s).heed s).session s).context? = none := by
    simpa [request,lock,heed,Session.context?] using dormant.context?
  have run : env.runOnce s (((w.request s).lock s).heed s) = some (((w.request s).lock s).heed s) := by
    rw [Environment.runOnce,bare]
  have settled : ((((w.request s).lock s).heed s).session s).requested = false := by simp [heed]
  refine ⟨_,env.regenerate_once dormant.idle run settled,⟨false,?_⟩,rfl,fun _ => .refl _,fun _ _ _ => rfl,?_⟩
  · simp [unlock,heed,lock,request,← dormant.idle]
  · exact emissions_reach s _ _ w

theorem Dormant.resolve (hook : Nat) (query : Query) :
    ∃ v, env.resolve hook query w = some ((w.hooks.get hook).passed query,v) ∧ Sleeps s edited w v := by
  rw [Environment.resolve,Hook.passed]
  cases based : (w.hooks.get hook).baseline with
  | none => exact ⟨w,rfl,.refl w⟩
  | some baseline =>
    have asked : Sleeps s edited w (w.record (.asked query)) := .record rfl
    rcases dormant.layers hook with none | laid
    · exact ⟨_,by simp [none,Environment.ask],asked⟩
    · simp only [laid,Environment.ask,Option.bind_eq_bind,Option.bind_some,List.isEmpty_cons,Bool.false_eq_true,
        if_false]
      cases answer : baseline query with
      | error fault => exact ⟨_,rfl,asked⟩
      | ok found =>
        have later := dormant.sleeps asked
        have passed : env.intercept s query.containingFile (query.names.zip (found.fit query.names.length))
            ((w.record (.asked query)).hold s) = _ := intercept_bare (w := (w.record (.asked query)).hold s) later.context? _ _
        have answers : (query.names.zip (found.fit query.names.length)).map (·.2) = found.fit query.names.length :=
          List.map_snd_zip (by simp [Answers.fit])
        rw [answers] at passed
        exact ⟨_,by simp [passed,Except.map],asked.trans (.release later.unwatched)⟩

theorem Dormant.notify (path : Path) : ∃ v, env.notify h path w = some (0,v) ∧ Sleeps s edited w v := by
  have silent : (w.host h).prune.watchesOn path = [] := by
    rw [MemoryHost.watchesOn,(MemoryHost.prune_sameWatches _).watches,dormant.hosts]
    rfl
  refine ⟨w.setHost h (w.host h).prune,by simp [Environment.notify,silent,Environment.fireAll],?_⟩
  exact .setHost ⟨MemoryHost.prune_sameWatches _,rfl⟩ fun _ _ => rfl

theorem Dormant.perform {command : Command} (stirs : command.Stirs s) (inactive : (w.session s).phase ≠ .active) :
    ∃ v, env.perform command w = some (w.reply command,v) ∧ Sleeps s command.Edits w v := by
  cases command with
  | regenerate t =>
    cases stirs
    cases left : (w.session s).dropped with
    | true => exact ⟨w,by simp [Environment.perform,Environment.onSession,left,reply],.refl w⟩
    | false =>
      obtain ⟨v,made,sleeps⟩ := dormant.regenerate env
      exact ⟨v,by simp [Environment.perform,Environment.onSession,left,made,reply],sleeps⟩
  | refresh t =>
    cases stirs
    refine ⟨w,?_,.refl w⟩
    cases left : (w.session s).dropped <;>
      simp [Environment.perform,Environment.onSession,left,Environment.refresh,inactive,reply,Environment.hostReply]
  | resolve hook query =>
    obtain ⟨v,resolved,sleeps⟩ := dormant.resolve env hook query
    exact ⟨v,by simp [Environment.perform,resolved,reply],sleeps⟩
  | notify h path =>
    obtain ⟨v,notified,sleeps⟩ := dormant.notify env (h := h) path
    exact ⟨v,by simp [Environment.perform,notified,reply],sleeps⟩
  | edit h path content =>
    have inserted : Sleeps s (Command.edit h path content).Edits w
        (w.setHost h ((w.host h).insert path content)) := by
      refine .setHost ⟨⟨rfl,rfl,rfl⟩,rfl⟩ fun other unedited => ?_
      rw [MemoryHost.file?_insert,if_neg fun same => unedited ⟨rfl,same⟩]
    obtain ⟨v,notified,sleeps⟩ := (dormant.sleeps inserted).notify env (h := h) path
    exact ⟨v,by simp [Environment.perform,notified,reply],inserted.trans sleeps⟩
  | _ => exact stirs.elim

end Asleep
end World
end Phrasebook
