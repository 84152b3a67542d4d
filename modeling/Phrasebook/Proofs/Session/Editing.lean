import Phrasebook.Proofs.Session.Notification
import Phrasebook.Proofs.Session.Reconfiguration
import Phrasebook.Proofs.Session.Resting
import Phrasebook.Proofs.Session.Running

/-! What an edit of a file comes to while collaborators only listen. A session with options hears of it once, by the
path that it watches, and makes one run on the files as they are then; if it does not watch the path, the file is all
that changes: `edited_regenerates`. Sessions whose host is another one may still watch this one, and are told as well,
but have no part in it. -/
namespace Phrasebook

/-- The session is created with no host but this one. -/
def Command.Keeps (s h : Nat) : Command → Prop
  | .create t platform _ _ _ => t = s → platform = some h
  | _ => True

namespace World

section Seat

variable {s h : Nat} {a b c w : World MemoryHost}

/-- The session has been given no other host, and has all its watches on this one. -/
structure Seated (s h : Nat) (w : World MemoryHost) : Prop where
  host : ∀ platform, (w.session s).host = some platform → platform = h
  watches : ∀ handle ∈ (w.session s).watches, handle.host = h

theorem Seated.frame (seated : b.Seated s h) (host : (c.session s).host = (b.session s).host)
    (watches : (c.session s).watches = (b.session s).watches ∨ (c.session s).watches = []) : c.Seated s h where
  host platform given := seated.host platform (host ▸ given)
  watches handle member := by
    rcases watches with same | none
    · exact seated.watches handle (same ▸ member)
    · exact absurd member (none ▸ List.not_mem_nil)

theorem Seated.modify {t : Nat} {f : Session → Session} (seated : b.Seated s h)
    (host : (f (b.session t)).host = (b.session t).host)
    (watches : (f (b.session t)).watches = (b.session t).watches) : (b.modify t f).Seated s h := by
  refine seated.frame ?_ (.inl ?_)
  · rw [session_modify]
    split
    next here => exact here ▸ host
    · rfl
  · rw [session_modify]
    split
    next here => exact here ▸ watches
    · rfl

theorem Seated.reach {t : Nat} {milestone : Milestone} {f : Session → Session} (seated : b.Seated s h)
    (host : (f (b.session t)).host = (b.session t).host)
    (watches : (f (b.session t)).watches = (b.session t).watches) : (b.reach t milestone f).Seated s h :=
  (seated.modify host watches).frame rfl (.inl rfl)

theorem Seated.unwatch (seated : b.Seated s h) (owner : Subscriber) : (b.unwatch owner).Seated s h := by
  refine seated.frame ?_ ?_
  · rw [session_unwatch]
    split <;> rfl
  · rw [session_unwatch]
    split
    · exact .inr rfl
    · exact .inl rfl

theorem Seated.step (before : a.Seated s h) (seated : b.Seated s h) (step : Step (Command.Keeps s h) a b c) :
    c.Seated s h := by
  cases step with
  | record | host | wrap | hold | leave => exact seated.frame rfl (.inl rfl)
  | generate | lock | unlock | heed | install | drop => exact seated.modify rfl rfl
  | request | start | finish | create | configure | activate => exact seated.reach rfl rfl
  | renewSink t =>
    have counted : ({b with sinks := b.sinks + 1} : World MemoryHost).Seated s h := seated.frame rfl (.inl rfl)
    exact counted.modify rfl rfl
  | introduce t platform hook logger options creates =>
    refine ⟨fun other given => ?_,fun handle member => ?_⟩
    · rw [session_modify] at given
      split at given
      next here =>
        have kept : platform = some h := creates here
        exact Option.some.inj (given.symm.trans kept)
      · exact seated.host other given
    · rw [session_modify] at member
      split at member
      · exact seated.watches handle member
      · exact seated.watches handle member
  | rewatch t context files watches ready =>
    by_cases own : t = s
    · subst own
      -- the options were read in `a`, so the host that goes with them is the one that the session had there
      have placed : context.host = h := before.host _ (Session.host_of_context? ready)
      obtain ⟨handles,same⟩ := session_of_rewatch b context.host (.session t) files t
      refine ⟨fun platform given => seated.host platform (by rwa [same] at given),?_⟩
      change ∀ handle ∈ (b.rewatch (.session t) context.host files).2.watches (.session t), handle.host = h
      rcases watches_rewatch (.session t) context.host files b with ⟨-,hosts⟩ | none
      · exact placed ▸ hosts
      · simp [none]
    · have spared : (b.rewatch (.session t) context.host files).2.session s = b.session s := by
        rcases b.rewatch_eq (.session t) context.host files with same | ⟨handles,same⟩ <;> simp [same,own]
      exact seated.frame (by rw [spared]) (.inl (by rw [spared]))
  | release t =>
    unfold World.release
    split
    · exact seated.unwatch _
    · exact seated
  | rewatchRecorder r g files =>
    have spared : (b.rewatch (.recorder r) g files).2.session s = b.session s := by
      rcases b.rewatch_eq (.recorder r) g files with same | ⟨handles,same⟩ <;> simp [same]
    exact seated.frame (by rw [spared]) (.inl (by rw [spared]))
  | unwatchRecorder => exact seated.unwatch _
  | dispose t =>
    have retired : (b.retire t).Seated s h := seated.reach rfl rfl
    exact retired.unwatch _

theorem seated_lasting (s h : Nat) : Lasting (Command.Keeps s h) fun a b => a.Seated s h → b.Seated s h :=
  .ofInvariant Seated.step

theorem Fresh.seated (fresh : w.Fresh) (s h : Nat) : w.Seated s h := by
  refine ⟨fun platform given => ?_,fun handle member => ?_⟩
  · rw [fresh.sessions s] at given
    cases given
  · rw [fresh.sessions s] at member
    cases member

/-- Of files that are all different, only one is at a path. -/
theorem filter_same_of_apart {handles : List Handle} {handle : Handle} {path : Path}
    (apart : handles.Pairwise fun a b => ¬a.path.same b.path = true) (member : handle ∈ handles)
    (same : handle.path.same path = true) : handles.filter (·.path.same path) = [handle] := by
  induction handles with
  | nil => cases member
  | cons first rest ih =>
    obtain ⟨unlike,apart⟩ := List.pairwise_cons.mp apart
    rcases List.mem_cons.mp member with rfl | later
    · have none : rest.filter (·.path.same path) = [] := by
        refine List.filter_eq_nil_iff.mpr fun other listed there => ?_
        exact unlike other listed (Path.same_trans same (Path.same_comm ▸ there))
      rw [List.filter_cons,if_pos same,none]
    · have elsewhere : ¬first.path.same path = true := fun there =>
        unlike handle later (Path.same_trans there (Path.same_comm ▸ same))
      rw [List.filter_cons,if_neg elsewhere]
      exact ih apart later

/-- The open watches of the session on a path are those of its set. -/
theorem Seated.watchesOn (seated : w.Seated s h) (accounted : w.Accounted) (path : Path) :
    (((w.host h).watchesOn path).filter (·.subscriber = .session s)).map (Watch.handle h) =
      (w.session s).watches.filter (·.path.same path) := by
  have all : (w.session s).watches.filter (·.host = h) = (w.session s).watches :=
    List.filter_eq_self.mpr fun handle member => decide_eq_true (seated.watches handle member)
  have owned : w.openOn h (.session s) = (w.session s).watches := (accounted.owned h (.session s)).trans all
  rw [← owned,openOn,List.filter_map,MemoryHost.watchesOn,List.filter_filter,List.filter_filter]
  refine congrArg _ (List.filter_congr fun watch _ => ?_)
  exact Bool.and_comm _ _

/-- One watch of the session is open on the path, and what else is open on it is not the session's. -/
theorem Seated.watched (seated : w.Seated s h) (accounted : w.Accounted) (neat : w.Neat) {handle : Handle}
    {path : Path} (member : handle ∈ (w.session s).watches) (same : handle.path.same path = true) :
    ∃ earlier watch later, (w.host h).watchesOn path = earlier ++ watch :: later ∧
      watch.subscriber = .session s ∧ watch.path = handle.path ∧
      ∀ other ∈ earlier ++ later, other.subscriber ≠ .session s := by
  have sole := seated.watchesOn accounted path
  rw [filter_same_of_apart (neat.apart s) member same] at sole
  obtain ⟨watch,found,rfl⟩ := List.map_eq_singleton_iff.mp sole
  obtain ⟨earlier,later,split,before,own,after⟩ := List.filter_eq_cons_iff.mp found
  refine ⟨earlier,watch,later,split,of_decide_eq_true own,rfl,fun other listed subscribed => ?_⟩
  rcases List.mem_append.mp listed with first | last
  · exact before other first (decide_eq_true subscribed)
  · exact List.filter_eq_nil_iff.mp after other last (decide_eq_true subscribed)

theorem Seated.unwatched (seated : w.Seated s h) (accounted : w.Accounted) {path : Path}
    (none : ∀ handle ∈ (w.session s).watches, ¬handle.path.same path = true) :
    ∀ watch ∈ (w.host h).watchesOn path, watch.subscriber ≠ .session s := by
  have empty := seated.watchesOn accounted path
  rw [List.filter_eq_nil_iff.mpr none,List.map_eq_nil_iff,List.filter_eq_nil_iff] at empty
  exact fun watch member subscribed => empty watch member (decide_eq_true subscribed)

end Seat

/-- Others may have been at work, but neither the session nor the host has changed, and those that were heard are
among these. -/
structure Aside (s h : Nat) (heard : Nat → Prop) (a b : World MemoryHost) : Prop where
  works : Works (· ≠ s) a b
  host : b.host h = a.host h
  history : b.history s = a.history s
  emissions : ∃ news, b.emissions = a.emissions ++ news ∧ ∀ emission ∈ news, heard emission.1

namespace Aside

variable {s h : Nat} {heard : Nat → Prop} {a b c w : World MemoryHost}

theorem refl (w : World MemoryHost) : Aside s h heard w w :=
  ⟨.refl w,rfl,rfl,[],(List.append_nil _).symm,by simp⟩

theorem trans (first : Aside s h heard a b) (next : Aside s h heard b c) : Aside s h heard a c where
  works := first.works.trans next.works
  host := next.host.trans first.host
  history := next.history.trans first.history
  emissions := by
    obtain ⟨news,start,known⟩ := first.emissions
    obtain ⟨more,rest,known'⟩ := next.emissions
    exact ⟨news ++ more,by rw [rest,start,List.append_assoc],List.forall_mem_append.mpr ⟨known,known'⟩⟩

theorem leave {t : Nat} (aside : Aside s h heard (a.hold t) b) : Aside s h heard a (b.leave t) :=
  {aside with works := aside.works.leave}

theorem session (aside : Aside s h heard a b) : b.session s = a.session s := aside.works.spared s (· rfl)

theorem remark {entry : Entry} (silent : ∀ t, entry.milestone? t = none) (unheard : entry.emission? = none) :
    Aside s h heard w (w.record entry) where
  works := .remark unheard
  host := rfl
  history := by simp [silent s]
  emissions := ⟨[],by rw [emissions_record,unheard]; rfl,by simp⟩

end Aside
end World

theorem Environment.fireAll_append (env : Environment MemoryHost) (first rest : List Watch) (w : World MemoryHost) :
    env.fireAll (first ++ rest) w = (env.fireAll first w).bind (env.fireAll rest) := by
  induction first generalizing w with
  | nil => rfl
  | cons watch first ih =>
    simp only [List.cons_append,fireAll,Option.bind_eq_bind,Option.bind_assoc]
    exact congrArg _ (funext ih)

namespace Environment.Quiet

variable {env : Environment MemoryHost} (quiet : env.Quiet) {s t h : Nat} {p : Nat → Prop} {w : World MemoryHost}

include quiet

/-- A regeneration concerns the session, and the host that it has. -/
theorem regenerate_aside (idle : (w.session t).inFlight = false) (other : t ≠ s)
    (away : (w.session t).host ≠ some h) (listens : ∀ sink, (w.session t).sink = some sink → p sink) :
    ∃ v, env.regenerate t w = some v ∧ World.Aside s h p w v := by
  cases ready : (w.session t).context? with
  | some context =>
    obtain ⟨v,status,run,ran⟩ := quiet.regenerate_ran idle ready
    refine ⟨v,run,quiet.works_regenerate other run,ran.elsewhere h fun here => ?_,ran.histories s other.symm,
      _,ran.emissions,fun emission member => ?_⟩
    · exact away (here ▸ Session.host_of_context? ready)
    · simp only [Option.mem_toList,Option.map_eq_some_iff] at member
      obtain ⟨sink,found,rfl⟩ := member
      exact listens sink found
  | none =>
    have bare : ((((w.request t).lock t).heed t).session t).context? = none := by
      simpa [World.request,World.lock,World.heed,Session.context?] using ready
    have run : env.runOnce t (((w.request t).lock t).heed t) = some (((w.request t).lock t).heed t) := by
      rw [Environment.runOnce,bare]
    have made := env.regenerate_once idle run (by simp [World.heed])
    refine ⟨_,made,quiet.works_regenerate other made,rfl,?_,[],?_,by simp⟩
    · simp [World.unlock,World.heed,World.lock,World.request,other]
    · exact (World.emissions_reach t _ _ w).trans (List.append_nil _).symm

theorem fire_aside {watch : Watch} (idle : ∀ t, (w.session t).inFlight = false)
    (away : ∀ t, t ≠ s → (w.session t).host ≠ some h) (other : watch.subscriber ≠ .session s)
    (listens : ∀ t sink, watch.subscriber = .session t → (w.session t).sink = some sink → p sink) :
    ∃ v, env.fire watch w = some v ∧ World.Aside s h p w v := by
  rw [Environment.fire]
  cases subscribed : watch.subscriber with
  | recorder r => exact ⟨_,rfl,.remark (fun _ => rfl) rfl⟩
  | session t =>
    have apart : t ≠ s := by
      rintro rfl
      exact other subscribed
    cases gone : w.gone t with
    | true => exact ⟨w,env.fileChanged_of_gone gone _,.refl w⟩
    | false =>
      let noted := (w.hold t).record (.noted (.fileChanged watch.path))
      have told : World.Aside s h p noted (noted.tell t (.fileChanged watch.path)) := by
        refine ⟨quiet.works_emit (by simp) (quiet.emit_eq t _ noted),by simp,by simp,_,World.emissions_tell _ _ _,?_⟩
        intro emission member
        simp only [Option.mem_toList,Option.map_eq_some_iff] at member
        obtain ⟨sink,found,rfl⟩ := member
        exact listens t sink subscribed found
      have idle' : ((noted.tell t (.fileChanged watch.path)).session t).inFlight = false := by
        rw [World.session_tell]
        exact idle t
      have away' : ((noted.tell t (.fileChanged watch.path)).session t).host ≠ some h := by
        rw [World.session_tell]
        exact away t apart
      have listens' (sink : Nat) (found : ((noted.tell t (.fileChanged watch.path)).session t).sink = some sink) :
          p sink := by
        rw [World.session_tell] at found
        exact listens t sink subscribed found
      obtain ⟨v,run,made⟩ := quiet.regenerate_aside idle' apart away' listens'
      have begun : World.Aside s h p (w.hold t) noted := .remark (fun _ => rfl) rfl
      have left := (begun.trans (told.trans made)).leave
      have emit := quiet.emit_eq t (.fileChanged watch.path) noted
      exact ⟨v.leave t,(env.fileChanged_of_there gone).mpr ⟨_,v,emit,run,left.works.there gone⟩,left⟩

theorem fireAll_aside {watches : List Watch} (idle : ∀ t, (w.session t).inFlight = false)
    (away : ∀ t, t ≠ s → (w.session t).host ≠ some h)
    (others : ∀ watch ∈ watches, watch.subscriber ≠ .session s)
    (listens : ∀ watch ∈ watches, ∀ t sink, watch.subscriber = .session t →
      (w.session t).sink = some sink → p sink) :
    ∃ v, env.fireAll watches w = some v ∧ World.Aside s h p w v := by
  induction watches generalizing w with
  | nil => exact ⟨w,rfl,.refl w⟩
  | cons watch rest ih =>
    obtain ⟨u,fired,first⟩ := quiet.fire_aside idle away (others watch List.mem_cons_self)
      (listens watch List.mem_cons_self)
    have idle' (t : Nat) : (u.session t).inFlight = false := (first.works.inFlight t).trans (idle t)
    have away' (t : Nat) (apart : t ≠ s) : (u.session t).host ≠ some h := by
      rw [first.works.same (·.host) (fun _ => rfl) t]
      exact away t apart
    have listens' (watch : Watch) (member : watch ∈ rest) (t sink : Nat) (subscribed : watch.subscriber = .session t)
        (found : (u.session t).sink = some sink) : p sink := by
      rw [first.works.same (·.sink) (fun _ => rfl) t] at found
      exact listens watch (List.mem_cons_of_mem _ member) t sink subscribed found
    obtain ⟨v,run,next⟩ := ih idle' away' (fun watch member => others watch (List.mem_cons_of_mem _ member)) listens'
    refine ⟨v,?_,first.trans next⟩
    simp only [Environment.fireAll,fired,Option.bind_eq_bind,Option.bind_some]
    exact run

/-- The session hears of the change, and makes one run. -/
theorem fire_own {watch : Watch} {context : Context} (subscribed : watch.subscriber = .session s)
    (idle : (w.session s).inFlight = false) (held : (w.session s).dropped = false)
    (ready : (w.session s).context? = some context) : ∃ v status, env.fire watch w = some v ∧
      World.Ran env.toolchain s context status [.requested,.started context.config,.ended status]
        ((w.record (.noted (.fileChanged watch.path))).tell s (.fileChanged watch.path)) v := by
  let noted := (w.hold s).record (.noted (.fileChanged watch.path))
  have idle' : ((noted.tell s (.fileChanged watch.path)).session s).inFlight = false := by
    rw [World.session_tell]
    exact idle
  have ready' : ((noted.tell s (.fileChanged watch.path)).session s).context? = some context := by
    rw [World.session_tell]
    exact ready
  obtain ⟨v,status,run,ran⟩ := quiet.regenerate_ran idle' ready'
  have there := World.gone_of_held held
  have kept : (v.leave s).gone s = false :=
    World.gone_of_held (by rw [World.session_leave,ran.same (·.dropped) fun _ _ => rfl,World.session_tell]; exact held)
  have same : noted.tell s (.fileChanged watch.path) =
      ((w.record (.noted (.fileChanged watch.path))).tell s (.fileChanged watch.path)).hold s :=
    World.tell_hold (w.record (.noted (.fileChanged watch.path))) s s _
  have emit := quiet.emit_eq s (.fileChanged watch.path) noted
  refine ⟨v.leave s,status,?_,World.Ran.leave (same ▸ ran)⟩
  rw [Environment.fire,subscribed]
  exact (env.fileChanged_of_there there).mpr ⟨_,v,emit,run,World.release_of_there kept⟩

/-- Among watches of which only one is the session's, this one is fired once, and the others have no part in it. -/
theorem fireAll_own {before after : List Watch} {watch : Watch} {context : Context}
    (subscribed : watch.subscriber = .session s) (idle : ∀ t, (w.session t).inFlight = false)
    (away : ∀ t, t ≠ s → (w.session t).host ≠ some h) (held : (w.session s).dropped = false)
    (ready : (w.session s).context? = some context)
    (others : ∀ other ∈ before ++ after, other.subscriber ≠ .session s)
    (listens : ∀ other ∈ before ++ after, ∀ t sink, other.subscriber = .session t →
      (w.session t).sink = some sink → p sink) :
    ∃ u x v status, env.fireAll (before ++ watch :: after) w = some v ∧ World.Aside s h p w u ∧
      World.Ran env.toolchain s context status [.requested,.started context.config,.ended status]
        ((u.record (.noted (.fileChanged watch.path))).tell s (.fileChanged watch.path)) x ∧
      World.Aside s h p x v := by
  obtain ⟨early,late⟩ := List.forall_mem_append.mp others
  obtain ⟨earlyListens,lateListens⟩ := List.forall_mem_append.mp listens
  obtain ⟨u,first,aside⟩ := quiet.fireAll_aside idle away early earlyListens
  have own : u.session s = w.session s := aside.session
  obtain ⟨x,status,fired,ran⟩ := quiet.fire_own subscribed (own ▸ idle s) (own ▸ held) (own ▸ ready)
  have bearing (t : Nat) : (x.session t).bearing = (w.session t).bearing := by
    rw [ran.bearing,World.session_tell]
    exact aside.works.bearing t
  have idle' (t : Nat) : (x.session t).inFlight = false :=
    (congrArg Session.inFlight (bearing t)).trans (idle t)
  have away' (t : Nat) (other : t ≠ s) : (x.session t).host ≠ some h := fun here =>
    away t other ((congrArg Session.host (bearing t)).symm.trans here)
  have lateListens' (other : Watch) (listed : other ∈ after) (t sink : Nat) (subscribed : other.subscriber = .session t)
      (found : (x.session t).sink = some sink) : p sink :=
    lateListens other listed t sink subscribed ((congrArg Session.sink (bearing t)).symm.trans found)
  obtain ⟨v,last,aside'⟩ := quiet.fireAll_aside idle' away' late lateListens'
  refine ⟨u,x,v,status,?_,aside,ran,aside'⟩
  simp [env.fireAll_append,first,Environment.fireAll,fired,last]

end Environment.Quiet

section Edited

variable {env : Environment MemoryHost} {s h : Nat} {path : Path} {content : String} {config : Config}
  {start w : World MemoryHost}

namespace World

/-- A host once a file of it was edited. -/
def edited (h : Nat) (path : Path) (content : String) (w : World MemoryHost) : MemoryHost :=
  ((w.host h).insert path content).prune

/-- The file is in place, and the watches on it are about to be fired. -/
def editing (h : Nat) (path : Path) (content : String) (w : World MemoryHost) : World MemoryHost :=
  (w.setHost h ((w.host h).insert path content)).setHost h (w.edited h path content)

@[simp] theorem host_editing (h : Nat) (path : Path) (content : String) (w : World MemoryHost) :
    (w.editing h path content).host h = w.edited h path content := by simp [editing]

/-- Another session has a watch open on the path, and this is its event sink. -/
def Overhears (s h : Nat) (path : Path) (w : World MemoryHost) (sink : Nat) : Prop :=
  ∃ t, t ≠ s ∧ w.Watched t h path ∧ (w.session t).sink = some sink

theorem Overhears.of_watchesOn {t sink : Nat} {watch : Watch} (member : watch ∈ (w.host h).watchesOn path)
    (other : watch.subscriber ≠ .session s) (subscribed : watch.subscriber = .session t)
    (listens : (w.session t).sink = some sink) : w.Overhears s h path sink := by
  obtain ⟨isOpen,same⟩ := List.mem_filter.mp member
  refine ⟨t,?_,⟨watch,isOpen,same,subscribed⟩,listens⟩
  rintro rfl
  exact other subscribed

end World

theorem Environment.perform_edit (env : Environment MemoryHost) (h : Nat) (path : Path) (content : String)
    (w : World MemoryHost) : env.perform (.edit h path content) w =
      (env.fireAll ((w.host h).watchesOn path) (w.editing h path content)).map fun v => (.done,v) := by
  have watches : (w.edited h path content).watchesOn path = (w.host h).watchesOn path := by
    have same : (w.edited h path content).watches = (w.host h).watches := (MemoryHost.prune_sameWatches _).watches
    rw [MemoryHost.watchesOn,same,MemoryHost.watchesOn]
  have begun : ((w.setHost h ((w.host h).insert path content)).host h).prune = w.edited h path content := by
    simp [World.edited]
  rw [Environment.perform,Environment.notify,begun,watches]
  change _ = (env.fireAll _ ((w.setHost h ((w.host h).insert path content)).setHost h (w.edited h path content))).map _
  cases env.fireAll ((w.host h).watchesOn path) _ <;> rfl

section Attentive

variable (quiet : env.Quiet) (accounted : w.Accounted) (seated : w.Seated s h)
  (idle : ∀ t, (w.session t).inFlight = false) (alone : ∀ t, t ≠ s → (w.session t).host ≠ some h)

include quiet accounted seated idle alone

theorem edit_unwatched (content : String) (none : ∀ handle ∈ (w.session s).watches, ¬handle.path.same path = true) :
    ∃ v others, env.perform (.edit h path content) w = some (.done,v) ∧ v.session s = w.session s ∧
      v.history s = w.history s ∧ v.host h = w.edited h path content ∧ v.emissions = w.emissions ++ others ∧
      ∀ emission ∈ others, w.Overhears s h path emission.1 := by
  have others := seated.unwatched accounted none
  obtain ⟨v,fired,aside⟩ := quiet.fireAll_aside (w := w.editing h path content) (p := w.Overhears s h path)
    idle alone others fun watch member t sink => .of_watchesOn member (others watch member)
  obtain ⟨news,heard,known⟩ := aside.emissions
  refine ⟨v,news,by rw [env.perform_edit,fired]; rfl,aside.session,aside.history,?_,heard,known⟩
  rw [aside.host,World.host_editing]

theorem edit_watched (content : String) (neat : w.Neat) (held : (w.session s).dropped = false)
    (adopted : (w.session s).config = some config) (placed : (w.session s).host = some h) {handle : Handle}
    (member : handle ∈ (w.session s).watches) (same : handle.path.same path = true) :
    ∃ v status calls earlier later, env.perform (.edit h path content) w = some (.done,v) ∧
      v.session s = {w.session s with
        requested := false,runs := (w.session s).runs + 1,last := some status,generations := calls} ∧
      v.history s = w.history s ++ [.requested,.started config,.ended status] ∧
      env.toolchain.Yields config (w.edited h path content) (v.host h) status ∧
      v.emissions = w.emissions ++ earlier ++ ((w.session s).sink.toList.flatMap fun sink =>
        [(sink,.fileChanged handle.path),(sink,status.event)]) ++ later ∧
      ∀ emission ∈ earlier ++ later, w.Overhears s h path emission.1 := by
  obtain ⟨before,watch,after,split,subscribed,spelled,others⟩ := seated.watched accounted neat member same
  have listens (other : Watch) (listed : other ∈ before ++ after) (t sink : Nat) :
      other.subscriber = .session t → (w.session t).sink = some sink → w.Overhears s h path sink := by
    refine .of_watchesOn ?_ (others other listed)
    rw [split]
    exact List.mem_append.mpr ((List.mem_append.mp listed).imp_right (List.mem_cons_of_mem _))
  let context : Context := ⟨h,(w.session s).logger,config⟩
  have ready : ((w.editing h path content).session s).context? = some context := by
    have same : (w.editing h path content).session s = w.session s := rfl
    simp [same,Session.context?,placed,adopted,context]
  obtain ⟨u,x,v,status,fired,aside,ran,aside'⟩ := quiet.fireAll_own (w := w.editing h path content)
    (p := w.Overhears s h path) subscribed idle alone held ready others listens
  have own : u.session s = w.session s := aside.session
  obtain ⟨earlier,heardBefore,knownBefore⟩ := aside.emissions
  obtain ⟨later,heardAfter,knownAfter⟩ := aside'.emissions
  obtain ⟨calls,made⟩ := ran.own
  refine ⟨v,status,calls,earlier,later,?_,?_,?_,?_,?_,List.forall_mem_append.mpr ⟨knownBefore,knownAfter⟩⟩
  · rw [env.perform_edit,split,fired]
    rfl
  · rw [aside'.session,made]
    simp [own]
  · rw [aside'.history,ran.own_history,World.history_tell,World.history_record,aside.history]
    simp [Entry.milestone?,World.editing,context]
  · have edited : u.host h = w.edited h path content := by rw [aside.host,World.host_editing]
    have yields := ran.yields
    rw [World.host_tell,World.host_record] at yields
    rw [aside'.host,← edited]
    exact yields
  · rw [heardAfter,ran.emissions,World.emissions_tell,World.emissions_record,heardBefore,World.session_tell,
      World.session_record,own,← spelled]
    change w.emissions ++ earlier ++ [] ++ _ ++ _ ++ later = _
    cases (w.session s).sink <;> simp

end Attentive

/-- Whatever the session has been through, with whatever collaborators, if it has options and the host is the only one
that it was ever given. An edit on this host makes it, if it watches the path, say so once, by its own spelling, and
make one run, which writes what is generated from the files as edited, or writes nothing; otherwise it says nothing and
does nothing, and the file is all that changes. All it keeps in either case is the rest of it: its phase, its options,
its watches. Nobody else is heard but sessions with another host who have watches left on this path. -/
theorem edited_regenerates (path : Path) (content : String) (fresh : start.Fresh) (tidy : ∀ g, (start.host g).Tidy)
    (leads : LeadsBy (Command.Keeps s h) start w) (quiet : env.Quiet) (held : (w.session s).dropped = false)
    (adopted : (w.session s).config = some config) (placed : (w.session s).host = some h)
    (alone : ∀ t, t ≠ s → (w.session t).host ≠ some h) :
    ∃ v, env.perform (.edit h path content) w = some (.done,v) ∧
      ((∀ handle ∈ (w.session s).watches, ¬handle.path.same path = true) →
        v.session s = w.session s ∧ v.history s = w.history s ∧ v.host h = w.edited h path content ∧
        ∃ others, v.emissions = w.emissions ++ others ∧ ∀ emission ∈ others, w.Overhears s h path emission.1) ∧
      ∀ handle ∈ (w.session s).watches, handle.path.same path = true → ∃ status calls earlier later,
        v.session s = {w.session s with
          requested := false,runs := (w.session s).runs + 1,last := some status,generations := calls} ∧
        v.history s = w.history s ++ [.requested,.started config,.ended status] ∧
        env.toolchain.Yields config (w.edited h path content) (v.host h) status ∧
        v.emissions = w.emissions ++ earlier ++ ((w.session s).sink.toList.flatMap fun sink =>
          [(sink,.fileChanged handle.path),(sink,status.event)]) ++ later ∧
        ∀ emission ∈ earlier ++ later, w.Overhears s h path emission.1 := by
  have accounted : w.Accounted := (World.accounted_lasting _).leadsBy leads fresh.accounted
  have seated : w.Seated s h := (World.seated_lasting s h).leadsBy leads (fresh.seated s h)
  have neat : w.Neat := (Rests.leadsBy leads).neat (fresh.neat tidy)
  have idle : ∀ t, (w.session t).inFlight = false := Reachable.idle ⟨start,fresh,leads.leads⟩
  have watched {handle : Handle} (member : handle ∈ (w.session s).watches) (same : handle.path.same path = true) :=
    edit_watched quiet accounted seated idle alone content neat held adopted placed member same
  by_cases none : ∀ handle ∈ (w.session s).watches, ¬handle.path.same path = true
  · obtain ⟨v,others,run,outcome⟩ := edit_unwatched quiet accounted seated idle alone content none
    obtain ⟨session,history,host,heard⟩ := outcome
    exact ⟨v,run,fun _ => ⟨session,history,host,others,heard⟩,fun handle member same =>
      absurd same (none handle member)⟩
  · simp only [not_forall,not_not] at none
    obtain ⟨first,listed,here⟩ := none
    obtain ⟨v,-,-,-,-,run,-⟩ := watched listed here
    refine ⟨v,run,fun none => absurd here (none first listed),fun handle member same => ?_⟩
    obtain ⟨u,status,calls,earlier,later,again,outcome⟩ := watched member same
    cases again.symm.trans run
    exact ⟨status,calls,earlier,later,outcome⟩

end Edited

section Listening

/-- The only session of the host has refreshed its watches once. -/
theorem manned_listens {p : World MemoryHost → Bool}
    (shown : ((Environment.silent .copying).refreshOnce 0 .manned).any p = true) :
    ∃ w, LeadsBy (Command.Keeps 0 0) .vacant w ∧ p w = true := by
  obtain ⟨w,refreshed,shown⟩ := (Option.any_eq_true _ _).mp shown
  have created : (Environment.silent .copying).perform (.create 0 (some 0) 0 0 plainOptions) .vacant =
      some (.service 0,.manned) := by rfl
  have keeps : (Command.create 0 (some 0) 0 0 plainOptions).Keeps 0 0 := fun _ => rfl
  have done (entry : Entry) (w : World MemoryHost) : Script.done.Issues (Command.Keeps 0 0) := trivial
  have first : LeadsBy (Command.Keeps 0 0) .vacant .manned := .perform (.refl _) keeps done created
  have refreshes : (Command.refresh 0).Keeps 0 0 := trivial
  exact ⟨w,.perform first refreshes done (Environment.refresh_of_once refreshed),shown⟩

theorem vacant_tidy (g : Nat) : (World.vacant.host g).Tidy := by
  obtain _ | g := g
  · exact List.pairwise_singleton _ _
  · exact .nil

/-- The path is spelled in another way than it is watched. The session makes its second run, on the text after the
edit. -/
theorem manned_edited_regenerates : ∃ w v : World MemoryHost, LeadsBy (Command.Keeps 0 0) .vacant w ∧
    (w.session 0).watches = [⟨0,0,⟨"/p/locales/en.yaml"⟩⟩] ∧
    (Environment.silent .copying).perform (.edit 0 ⟨"/p/./locales/en.yaml"⟩ "c: d") w = some (.done,v) ∧
    (v.session 0).watches = (w.session 0).watches ∧ (v.session 0).runs = 2 ∧
    (∃ status : Status, v.emissions =
      w.emissions ++ [(0,.fileChanged ⟨"/p/locales/en.yaml"⟩),(0,status.event)]) ∧
    (v.host 0).file? plainContext.config.outputPath = some "c: d" := by
  obtain ⟨w,leads,shown⟩ := manned_listens (p := fun w =>
    ((w.session 0).watches = [⟨0,0,⟨"/p/locales/en.yaml"⟩⟩] ∧ (w.session 0).dropped = false ∧
      (w.session 0).config = some plainContext.config ∧ (w.session 0).host = some 0 ∧
      (w.session 0).sink = some 0 ∧ (w.session 0).runs = 1 ∧ w.sessions.size = 1 ∧
      (w.host 0).watchesOn ⟨"/p/./locales/en.yaml"⟩ = [⟨0,⟨"/p/locales/en.yaml"⟩,.session 0,true⟩]) ∧
    ((Environment.silent .copying).changeOnce 0 ⟨"/p/locales/en.yaml"⟩
      (w.editing 0 ⟨"/p/./locales/en.yaml"⟩ "c: d")).any fun v =>
        (v.host 0).file? plainContext.config.outputPath = some "c: d") (by decide +kernel)
  obtain ⟨⟨watches,held,adopted,placed,sink,runs,size,fires⟩,changes⟩ := of_decide_eq_true shown
  obtain ⟨v,changed,output⟩ := (Option.any_eq_true _ _).mp changes
  have unused (t : Nat) (other : t ≠ 0) : (w.session t).host = none ∧ (w.session t).sink = none := by
    rw [World.session,w.sessions.get_of_size_le (size ▸ Nat.one_le_iff_ne_zero.mpr other)]
    exact ⟨rfl,rfl⟩
  have alone (t : Nat) (other : t ≠ 0) : (w.session t).host ≠ some 0 := by simp [unused t other]
  obtain ⟨u,run,-,watched⟩ := edited_regenerates ⟨"/p/./locales/en.yaml"⟩ "c: d"
    World.vacant_fresh vacant_tidy leads (Environment.silent_quiet .copying) held adopted placed alone
  have edits : (Environment.silent .copying).perform (.edit 0 ⟨"/p/./locales/en.yaml"⟩ "c: d") w =
      some (.done,v) := by
    rw [Environment.perform_edit,fires]
    simp [Environment.fireAll,Environment.fire,Environment.fileChanged_of_once changed]
  cases edits.symm.trans run
  have member : ⟨0,0,⟨"/p/locales/en.yaml"⟩⟩ ∈ (w.session 0).watches := watches ▸ List.mem_singleton.mpr rfl
  obtain ⟨status,calls,earlier,later,session,-,-,heard,others⟩ := watched _ member (by decide +kernel)
  have nobody : earlier ++ later = [] := by
    refine List.eq_nil_iff_forall_not_mem.mpr fun emission listed => ?_
    obtain ⟨t,other,-,listens⟩ := others emission listed
    simp [unused t other] at listens
  obtain ⟨rfl,rfl⟩ := List.append_eq_nil_iff.mp nobody
  refine ⟨w,v,leads,watches,edits,by rw [session],by rw [session,runs],⟨status,?_⟩,of_decide_eq_true output⟩
  simpa [sink] using heard

end Listening
end Phrasebook
