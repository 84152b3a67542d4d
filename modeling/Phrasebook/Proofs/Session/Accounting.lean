import Mathlib.Data.List.Nodup
import Mathlib.Logic.Function.Basic
import Phrasebook.Proofs.Session.Step

/-! Every open watch of a host is in exactly one watch set, and a watch set lists nothing else. The
invariant is `World.Accounted`; `rewatch_spec` says what replacing a set does. -/
namespace Phrasebook
open Function

namespace MemoryHost

variable {host state : MemoryHost} {id : WatchId} {path : Path} {subscriber : Subscriber}

@[simp] theorem watches_close : (host.close id).watches = host.watches.filter (·.id ≠ id) := by
  unfold close
  split
  · simp only [watches]
    induction host.slots with
    | nil => rfl
    | cons watch rest ih =>
      rw [List.map_cons]
      by_cases same : watch.id = id <;> cases isOpen : watch.isOpen <;>
        simp [same,isOpen,ih]
  next absent =>
    refine (List.filter_eq_self.mpr fun watch member => ?_).symm
    simp only [List.any_eq_true,not_exists,not_and] at absent
    simpa using absent watch member

theorem watch_eq_ok (opens : Host.watch path subscriber host = .ok (id,state)) :
    id = host.opened ∧ state.opened = host.opened + 1 ∧ state.closed = host.closed ∧
    state.watches = host.watches ++ [{id := id,path := path,subscriber := subscriber}] := by
  change host.watch path subscriber = .ok (id,state) at opens
  unfold watch at opens
  split at opens
  · contradiction
  · split at opens
    · contradiction
    · cases opens
      exact ⟨rfl,rfl,rfl,by simp [watches]⟩

/-- The counters and the numbers of the open watches fit together. -/
structure Sound (host : MemoryHost) : Prop where
  distinct : (host.watches.map (·.id)).Nodup
  fresh : ∀ watch ∈ host.watches, watch.id < host.opened
  balanced : host.opened = host.closed + host.watches.length

theorem Sound.same (sound : host.Sound) (same : host.SameWatches state) : state.Sound := by
  obtain ⟨watches,opened,closed⟩ := same
  exact ⟨watches ▸ sound.distinct,watches ▸ opened ▸ sound.fresh,by rw [watches,opened,closed,sound.balanced]⟩

theorem Sound.watch (sound : host.Sound) (opens : Host.watch path subscriber host = .ok (id,state)) :
    state.Sound := by
  obtain ⟨rfl,opened,closed,watches⟩ := watch_eq_ok opens
  refine ⟨?_,?_,?_⟩
  · rw [watches,List.map_append,List.nodup_append]
    refine ⟨sound.distinct,by simp,?_⟩
    rintro old listed _ new rfl
    obtain ⟨watch,member,rfl⟩ := List.mem_map.mp listed
    have same : watch.id = host.opened := by simpa using new
    exact Nat.ne_of_lt (sound.fresh watch member) same
  · intro watch member
    rw [watches,List.mem_append,List.mem_singleton] at member
    rw [opened]
    rcases member with old | rfl
    · exact Nat.lt_succ_of_lt (sound.fresh watch old)
    · exact Nat.lt_succ_self _
  · have balanced := sound.balanced
    rw [opened,closed,watches,List.length_append,List.length_singleton]
    omega

theorem Sound.once (sound : host.Sound) {watch : Watch} (member : watch ∈ host.watches) :
    host.watches.countP (·.id == watch.id) = 1 := by
  have counted := List.count_eq_one_of_mem sound.distinct (List.mem_map_of_mem (f := (·.id)) member)
  rwa [List.count,List.countP_map] at counted

theorem Sound.close (sound : host.Sound) : (host.close id).Sound := by
  refine ⟨?_,?_,?_⟩
  · rw [watches_close]
    exact sound.distinct.sublist (List.filter_sublist.map _)
  · intro watch member
    rw [watches_close] at member
    have opened : (host.close id).opened = host.opened := by unfold MemoryHost.close; split <;> rfl
    exact opened ▸ sound.fresh watch (List.mem_filter.mp member).1
  · have balanced := sound.balanced
    have parts := List.length_eq_countP_add_countP (·.id == id) (l := host.watches)
    have left : (host.close id).watches.length = host.watches.countP fun watch => ¬(watch.id == id) := by
      rw [watches_close,List.countP_eq_length_filter]
      simp
    rw [left]
    unfold MemoryHost.close
    split
    next present =>
      obtain ⟨watch,member,same⟩ := List.any_eq_true.mp present
      have once := sound.once member
      rw [of_decide_eq_true same] at once
      change host.opened = host.closed + 1 + _
      omega
    next absent =>
      have none : host.watches.countP (·.id == id) = 0 := by
        simpa [List.countP_eq_zero] using absent
      omega

end MemoryHost

/-- A watch as its subscriber holds it. -/
def Watch.handle (h : Nat) (watch : Watch) : Handle := ⟨h,watch.id,watch.path⟩

namespace World

/-- The open watches of a subscriber on a host. -/
def openOn (w : World MemoryHost) (h : Nat) (owner : Subscriber) : List Handle :=
  ((w.host h).watches.filter (·.subscriber = owner)).map (Watch.handle h)

/-- What is open is what the subscribers own. -/
structure Accounts (owned : Subscriber → List Handle) (w : World MemoryHost) : Prop where
  sound : ∀ h, (w.host h).Sound
  owned : ∀ h owner, w.openOn h owner = (owned owner).filter (·.host = h)

/-- What is open is what the watch sets list. -/
def Accounted (w : World MemoryHost) : Prop := w.Accounts w.watches

variable {w w' : World MemoryHost} {owned : Subscriber → List Handle} {owner : Subscriber} {h : Nat}

theorem Accounts.mem (accounts : w.Accounts owned) {watch : Watch} (member : watch ∈ (w.host h).watches) :
    watch.handle h ∈ owned watch.subscriber := by
  have listed : watch.handle h ∈ w.openOn h watch.subscriber :=
    List.mem_map_of_mem (List.mem_filter.mpr ⟨member,by simp⟩)
  rw [accounts.owned] at listed
  exact (List.mem_filter.mp listed).1

/-- Only the subscriber that owns a handle has a watch of that number. -/
theorem Accounts.subscriber (accounts : w.Accounts owned) {watch : Watch} (member : watch ∈ (w.host h).watches)
    {handle : Handle} (holds : handle ∈ owned owner) (here : handle.host = h) (same : handle.watch = watch.id) :
    watch.subscriber = owner := by
  have listed : handle ∈ w.openOn h owner := by
    rw [accounts.owned]
    exact List.mem_filter.mpr ⟨holds,by simpa using here⟩
  obtain ⟨other,filtered,rfl⟩ := List.mem_map.mp listed
  obtain ⟨present,subscribed⟩ := List.mem_filter.mp filtered
  have one : other = watch := List.inj_on_of_nodup_map (accounts.sound h).distinct present member same
  exact one ▸ of_decide_eq_true subscribed

theorem host_close (handle : Handle) (w : World MemoryHost) : (w.close handle).host h =
    if handle.host = h then (w.host h).close handle.watch else w.host h := by
  rw [close,host_record,host_setHost]
  split
  next here => rw [← here]; rfl
  · rfl

theorem watches_host_closeAll (handles : List Handle) (w : World MemoryHost) :
    ((w.closeAll handles).host h).watches =
      (w.host h).watches.filter fun watch => ¬∃ handle ∈ handles, handle.host = h ∧ handle.watch = watch.id := by
  induction handles generalizing w with
  | nil => simp [closeAll]
  | cons handle rest ih =>
    apply (ih (w.close handle)).trans
    rw [host_close]
    split
    next here =>
      rw [MemoryHost.watches_close,List.filter_filter]
      apply List.filter_congr
      intro watch _
      simp [here,eq_comm,Bool.and_comm]
    next elsewhere =>
      apply List.filter_congr
      intro watch _
      simp [elsewhere]

theorem sound_closeAll (handles : List Handle) (sound : ∀ h, (w.host h).Sound) (h : Nat) :
    ((w.closeAll handles).host h).Sound := by
  induction handles generalizing w with
  | nil => exact sound h
  | cons handle rest ih =>
    apply ih (w := w.close handle)
    intro g
    rw [host_close]
    split
    · exact (sound g).close
    · exact sound g

/-- Closing all that a subscriber owns leaves just the watches of the others open. -/
theorem Accounts.closeAll (accounts : w.Accounts owned) (owner : Subscriber) :
    (w.closeAll (owned owner)).Accounts (update owned owner []) := by
  have left (h : Nat) : ((w.closeAll (owned owner)).host h).watches =
      (w.host h).watches.filter (·.subscriber ≠ owner) := by
    rw [watches_host_closeAll]
    apply List.filter_congr
    intro watch member
    rw [decide_eq_decide,not_iff_not]
    constructor
    · rintro ⟨handle,holds,here,same⟩
      exact accounts.subscriber member holds here same
    · rintro rfl
      exact ⟨watch.handle h,accounts.mem member,rfl,rfl⟩
  refine ⟨sound_closeAll _ accounts.sound,?_⟩
  intro h other
  rw [openOn,left,List.filter_filter]
  by_cases same : other = owner
  · subst other
    rw [update_self,List.filter_nil,List.map_eq_nil_iff,List.filter_eq_nil_iff]
    simp
  · rw [update_of_ne same,← accounts.owned,openOn]
    refine congrArg _ (List.filter_congr fun watch _ => ?_)
    by_cases mine : watch.subscriber = other <;> simp [mine,same]

/-- The watch that was just opened is one more handle of its subscriber. -/
theorem Accounts.watch (accounts : w.Accounts owned) {file : Path} {id : WatchId} {state : MemoryHost}
    (opens : Host.watch file owner (w.host h) = .ok (id,state)) :
    ((w.setHost h state).record (.opened file)).Accounts
      (update owned owner (owned owner ++ [⟨h,id,file⟩])) := by
  obtain ⟨-,-,-,watches⟩ := MemoryHost.watch_eq_ok opens
  refine ⟨fun g => ?_,fun g other => ?_⟩
  · rw [host_record,host_setHost]
    split
    · exact (accounts.sound h).watch opens
    · exact accounts.sound g
  · have before := accounts.owned g other
    rw [openOn] at before ⊢
    rw [host_record,host_setHost]
    by_cases same : other = owner
    · subst other
      rw [update_self,List.filter_append,← before]
      split
      next here => subst g; simp [watches,Watch.handle]
      next elsewhere => simp [elsewhere]
    · rw [update_of_ne same,← before]
      split
      next here => subst g; simp [watches,Ne.symm same]
      · rfl

theorem Accounts.openAll (accounts : w.Accounts owned) (owner : Subscriber) (h : Nat) (files : List Path) :
    match World.openAll owner h files (owned owner) w with
    | (.ok handles,w') => w'.Accounts (update owned owner handles)
    | (.error _,w') => w'.Accounts (update owned owner []) := by
  induction files generalizing w owned with
  | nil => simpa [World.openAll] using accounts
  | cons file files ih =>
    rw [World.openAll]
    cases opens : Host.watch file owner (w.host h) with
    | error fault => exact accounts.closeAll owner
    | ok made =>
      obtain ⟨id,state⟩ := made
      have opened := ih (accounts.watch opens)
      simpa only [update_self,update_idem] using opened

/-- Once the subscriber is given the handles that it owns, the sets are complete. -/
theorem Accounts.setWatches {handles : List Handle} (accounts : w.Accounts (update w.watches owner handles)) :
    (w.setWatches owner handles).Accounted where
  sound h := by simpa using accounts.sound h
  owned h other := by
    have owned := accounts.owned h other
    rw [openOn] at owned ⊢
    rw [host_setWatches,owned,watches_setWatches]
    by_cases same : owner = other
    · simp [same]
    · simp [same,update_of_ne (Ne.symm same)]

/-- Nothing that concerns watches has changed. -/
theorem Accounted.frame (accounted : w.Accounted) (hosts : ∀ h, (w.host h).SameWatches (w'.host h))
    (sets : ∀ owner, w'.watches owner = w.watches owner) : w'.Accounted where
  sound h := (accounted.sound h).same (hosts h)
  owned h owner := by rw [sets owner,← accounted.owned h owner,openOn,openOn,(hosts h).watches]

theorem Accounted.unwatch (accounted : w.Accounted) (owner : Subscriber) : (w.unwatch owner).Accounted := by
  apply Accounts.setWatches
  have same : (w.closeAll (w.watches owner)).watches = w.watches := by
    funext other
    exact watches_closeAll w other _
  rw [same]
  exact Accounts.closeAll accounted owner

theorem Accounted.rewatch (accounted : w.Accounted) (owner : Subscriber) (h : Nat) (files : List Path) :
    (w.rewatch owner h files).2.Accounted := by
  have opened := Accounts.openAll (accounted.unwatch owner) owner h files
  have sets : (World.openAll owner h files [] (w.unwatch owner)).2.watches = (w.unwatch owner).watches := by
    funext other
    exact watches_openAll _ _ _ _ _ _
  have cleared : (w.unwatch owner).watches owner = [] := by simp
  rw [cleared] at opened
  rw [World.rewatch]
  split at opened
  next handles after made =>
    rw [made] at sets ⊢
    exact Accounts.setWatches (sets ▸ opened)
  next fault after made =>
    rw [made] at sets ⊢
    have same := update_eq_self owner (w.unwatch owner).watches
    rw [cleared] at same
    rwa [same,← sets] at opened

theorem watches_modify {s : Nat} {f : Session → Session} (same : (f (w.session s)).watches = (w.session s).watches)
    (owner : Subscriber) : (w.modify s f).watches owner = w.watches owner := by
  cases owner with
  | recorder r => rfl
  | session t =>
    change ((w.modify s f).session t).watches = (w.session t).watches
    rw [session_modify]
    split
    next here => exact here ▸ same
    · rfl

theorem Accounted.modify (accounted : w.Accounted) {s : Nat} {f : Session → Session}
    (same : (f (w.session s)).watches = (w.session s).watches) : (w.modify s f).Accounted :=
  accounted.frame (fun _ => ⟨rfl,rfl,rfl⟩) (watches_modify same)

theorem Accounted.reach (accounted : w.Accounted) {s : Nat} {milestone : Milestone} {f : Session → Session}
    (same : (f (w.session s)).watches = (w.session s).watches) : (w.reach s milestone f).Accounted :=
  (accounted.modify same).frame (fun _ => ⟨rfl,rfl,rfl⟩) fun owner => by cases owner <;> rfl

theorem Accounted.step {issued : Command → Prop} {a b c : World MemoryHost} (accounted : b.Accounted)
    (step : Step issued a b c) : c.Accounted := by
  cases step with
  | record => exact accounted.frame (fun _ => ⟨rfl,rfl,rfl⟩) fun owner => by cases owner <;> rfl
  | wrap | hold | leave => exact accounted.frame (fun _ => ⟨rfl,rfl,rfl⟩) fun owner => by cases owner <;> rfl
  | host h state same =>
    refine accounted.frame (fun g => ?_) fun owner => by cases owner <;> rfl
    rw [host_setHost]
    split
    next here => exact here ▸ same
    · exact ⟨rfl,rfl,rfl⟩
  | renewSink s =>
    have shown : ({b with sinks := b.sinks + 1} : World MemoryHost).Accounted :=
      accounted.frame (fun _ => ⟨rfl,rfl,rfl⟩) fun owner => by cases owner <;> rfl
    exact shown.modify rfl
  | generate | lock | unlock | heed | introduce | install | drop => exact accounted.modify rfl
  | request | start | finish | create | configure | activate => exact accounted.reach rfl
  | rewatch => exact accounted.rewatch _ _ _
  | rewatchRecorder => exact accounted.rewatch _ _ _
  | unwatchRecorder => exact accounted.unwatch _
  | release s =>
    unfold World.release
    split
    · exact accounted.unwatch _
    · exact accounted
  | dispose s => exact Accounted.unwatch (accounted.reach rfl) _

theorem accounted_lasting (issued : Command → Prop) :
    Lasting issued fun a b => a.Accounted → b.Accounted :=
  .ofInvariant fun _ accounted step => accounted.step step

theorem Fresh.accounted (fresh : w.Fresh) : w.Accounted where
  sound h := by
    obtain ⟨none,opened,closed⟩ := fresh.hosts h
    exact ⟨by simp [none],by simp [none],by simp [none,opened,closed]⟩
  owned h owner := by
    have unwatched : w.watches owner = [] := by
      cases owner with
      | session s => rw [watches,fresh.sessions s]
      | recorder r => exact fresh.recorders r
    simp [openOn,(fresh.hosts h).1,unwatched]

/-- Whoever may have a watch set. -/
def subscribers (w : World MemoryHost) : List Subscriber :=
  (List.range w.sessions.size).map .session ++ (List.range w.recorders.size).map .recorder

theorem subscribers_nodup (w : World MemoryHost) : w.subscribers.Nodup := by
  refine List.nodup_append.mpr ⟨?_,?_,by simp⟩
  · exact List.nodup_range.map fun _ _ => Subscriber.session.inj
  · exact List.nodup_range.map fun _ _ => Subscriber.recorder.inj

theorem mem_subscribers (some : w.watches owner ≠ []) : owner ∈ w.subscribers := by
  cases owner with
  | session s =>
    have used : s < w.sessions.size := by
      apply Nat.lt_of_not_le
      intro unused
      apply some
      rw [watches,session,Slots.get_of_size_le _ unused]
      rfl
    simp [subscribers,used]
  | recorder r =>
    have used : r < w.recorders.size := by
      apply Nat.lt_of_not_le
      intro unused
      apply some
      rw [watches,Slots.get_of_size_le _ unused]
      rfl
    simp [subscribers,used]

/-- Every element is in the group of its key. -/
theorem perm_groups {α β : Type} [DecidableEq β] (key : α → β) {keys : List β} (distinct : keys.Nodup)
    {list : List α} (covered : ∀ a ∈ list, key a ∈ keys) :
    list.Perm (keys.flatMap fun k => list.filter (key · = k)) := by
  induction keys generalizing list with
  | nil =>
    cases list with
    | nil => exact .refl _
    | cons a rest => exact absurd (covered a (by simp)) (by simp)
  | cons first keys ih =>
    obtain ⟨absent,distinct⟩ := List.nodup_cons.mp distinct
    have keyed : ∀ a ∈ list.filter fun a => !decide (key a = first), key a ∈ keys := by
      intro a member
      obtain ⟨listed,other⟩ := List.mem_filter.mp member
      exact (List.mem_cons.mp (covered a listed)).resolve_left (by simpa using other)
    have others := ih distinct keyed
    have regrouped : (keys.flatMap fun k => (list.filter fun a => !decide (key a = first)).filter (key · = k)) =
        keys.flatMap fun k => list.filter (key · = k) := by
      apply List.flatMap_congr
      intro k member
      rw [List.filter_filter]
      apply List.filter_congr
      intro a _
      by_cases same : key a = k
      · have other : k ≠ first := fun eq => absent (eq ▸ member)
        simp [same,other]
      · simp [same]
    rw [List.flatMap_cons,← regrouped]
    exact (List.filter_append_perm _ list).symm.trans (others.append_left _)

/-- The open watches of each host are those in the watch sets, and the counters show how many. -/
structure Balanced (w : World MemoryHost) : Prop where
  counters : ∀ h, (w.host h).opened = (w.host h).closed + (w.host h).watches.length
  union : ∀ h, ((w.host h).watches.map (·.path)).Perm
    (w.subscribers.flatMap fun owner => ((w.watches owner).filter (·.host = h)).map (·.path))

theorem Accounted.balanced (accounted : w.Accounted) : w.Balanced where
  counters h := (accounted.sound h).balanced
  union h := by
    have groups : (w.host h).watches.Perm (w.subscribers.flatMap fun owner =>
        (w.host h).watches.filter (·.subscriber = owner)) := by
      apply perm_groups _ w.subscribers_nodup
      intro watch member
      apply mem_subscribers
      intro none
      exact absurd (none ▸ Accounts.mem accounted member) (by simp)
    have paths := groups.map (·.path)
    have same : (fun handle : Handle => handle.path) ∘ Watch.handle h = (·.path) := rfl
    rw [List.map_flatMap] at paths
    simpa only [← accounted.owned,openOn,List.map_map,same] using paths

end World

theorem Reachable.accounted {w : World MemoryHost} (reached : Reachable w) : w.Accounted := by
  obtain ⟨start,fresh,leads⟩ := reached
  exact (World.accounted_lasting _).leads leads fresh.accounted

def Entry.ofWatch : Entry → Bool
  | .opened _ | .closed _ => true
  | _ => false

namespace World

variable {w : World MemoryHost} {owner : Subscriber} {h : Nat}

/-- The openings and closings of watches so far. -/
def watchLog (w : World MemoryHost) : List Entry := w.trace.filter Entry.ofWatch

theorem watchLog_record (entry : Entry) :
    (w.record entry).watchLog = w.watchLog ++ if entry.ofWatch then [entry] else [] := by
  rw [watchLog,record,List.filter_append,List.filter_singleton,Bool.cond_eq_ite,watchLog]

@[simp] theorem watchLog_closeAll (handles : List Handle) (w : World MemoryHost) :
    (w.closeAll handles).watchLog = w.watchLog ++ handles.map (.closed ·.path) := by
  induction handles generalizing w with
  | nil => simp [closeAll]
  | cons handle rest ih =>
    apply (ih (w.close handle)).trans
    have closed : (w.close handle).watchLog = w.watchLog ++ [.closed handle.path] := watchLog_record _
    simp [closed]

@[simp] theorem watchLog_setWatches (handles : List Handle) :
    (w.setWatches owner handles).watchLog = w.watchLog := by
  cases owner with
  | session s => exact (watchLog_record _).trans (List.append_nil _)
  | recorder r => rfl

/-- Watches are opened in order; at the first that is refused all of them are closed again. -/
theorem openAll_spec (owner : Subscriber) (h : Nat) (files : List Path) (opened : List Handle)
    (w : World MemoryHost) :
    match World.openAll owner h files opened w with
    | (.ok handles,w') => handles.map (·.path) = opened.map (·.path) ++ files ∧
      (∀ handle ∈ handles, handle ∈ opened ∨ handle.host = h) ∧
      w'.watchLog = w.watchLog ++ files.map .opened
    | (.error _,w') => ∃ before file after, files = before ++ file :: after ∧
      w'.watchLog = w.watchLog ++ before.map .opened ++ (opened.map (·.path) ++ before).map .closed := by
  induction files generalizing opened w with
  | nil => simp +contextual [World.openAll]
  | cons file files ih =>
    rw [World.openAll]
    cases opens : Host.watch file owner (w.host h) with
    | error fault => exact ⟨[],file,files,by simp,by simp [Function.comp_def]⟩
    | ok made =>
      obtain ⟨id,state⟩ := made
      have logged : ((w.setHost h state).record (.opened file)).watchLog = w.watchLog ++ [.opened file] :=
        watchLog_record _
      have rest := ih (opened ++ [⟨h,id,file⟩]) ((w.setHost h state).record (.opened file))
      simp only
      split at rest
      next handles after made =>
        obtain ⟨paths,hosts,log⟩ := rest
        refine ⟨by simp [paths],fun handle member => ?_,by simp [log,logged]⟩
        rcases hosts handle member with listed | here
        · rcases List.mem_append.mp listed with before | new
          · exact .inl before
          · exact .inr (by rw [List.mem_singleton.mp new])
        · exact .inr here
      next fault after made =>
        obtain ⟨before,failed,later,files,log⟩ := rest
        exact ⟨file :: before,failed,later,by simp [files],by simp [log,logged]⟩

/-- A set that was replaced has a watch on each of the files, or none at all. -/
theorem watches_rewatch (owner : Subscriber) (h : Nat) (files : List Path) (w : World MemoryHost) :
    ((w.rewatch owner h files).2.watches owner).map (·.path) = files ∧
      (∀ handle ∈ (w.rewatch owner h files).2.watches owner, handle.host = h) ∨
    (w.rewatch owner h files).2.watches owner = [] := by
  have spec := openAll_spec owner h files [] (w.unwatch owner)
  have sets := watches_openAll (w.unwatch owner) owner owner h files []
  rw [watches_unwatch,if_pos rfl] at sets
  unfold World.rewatch
  split at spec
  next handles last made =>
    obtain ⟨paths,hosts,-⟩ := spec
    rw [made]
    refine .inl ⟨by simpa using paths,fun handle member => ?_⟩
    exact (hosts handle (by simpa using member)).resolve_left (by simp)
  next fault last made =>
    rw [made] at sets ⊢
    exact .inr sets

@[simp] theorem watchLog_unwatch (w : World MemoryHost) :
    (w.unwatch owner).watchLog = w.watchLog ++ (w.watches owner).map (.closed ·.path) := by
  rw [unwatch,watchLog_setWatches,watchLog_closeAll]

/-- What replacing the watch set of a subscriber comes to, `opened` being the files on which a watch
could be opened. -/
structure Rewatched (owner : Subscriber) (h : Nat) (files opened : List Path) (w : World MemoryHost)
    (result : Except HostFault Refreshed) (w' : World MemoryHost) : Prop where
  balanced : w'.Balanced
  others : ∀ other, other ≠ owner → w'.watches other = w.watches other
  elsewhere : ∀ g other, other ≠ owner → w'.openOn g other = w.openOn g other
  success : ∀ refreshed, result = .ok refreshed →
    refreshed = ⟨files.length,(w.watches owner).length⟩ ∧ opened = files ∧
    (w'.watches owner).map (·.path) = files ∧ (∀ handle ∈ w'.watches owner, handle.host = h) ∧
    w'.watchLog = w.watchLog ++ (w.watches owner).map (.closed ·.path) ++ files.map .opened
  failure : ∀ fault, result = .error fault →
    w'.watches owner = [] ∧ (∃ file rest, files = opened ++ file :: rest) ∧
    w'.watchLog = w.watchLog ++ (w.watches owner).map (.closed ·.path) ++ opened.map .opened ++
      opened.map .closed

theorem Accounted.rewatched (accounted : w.Accounted) (owner : Subscriber) (h : Nat) (files : List Path) :
    ∃ opened, Rewatched owner h files opened w (w.rewatch owner h files).1 (w.rewatch owner h files).2 := by
  have after := accounted.rewatch owner h files
  have others (other : Subscriber) (other_ne : other ≠ owner) :
      (w.rewatch owner h files).2.watches other = w.watches other := by
    rcases w.rewatch_eq owner h files with same | ⟨handles,same⟩ <;>
      simp [same,Ne.symm other_ne]
  have elsewhere (g : Nat) (other : Subscriber) (other_ne : other ≠ owner) :
      (w.rewatch owner h files).2.openOn g other = w.openOn g other := by
    rw [after.owned,accounted.owned,others other other_ne]
  have spec := openAll_spec owner h files [] (w.unwatch owner)
  rw [watchLog_unwatch] at spec
  have sets := watches_openAll (w.unwatch owner) owner owner h files []
  unfold World.rewatch at after others elsewhere ⊢
  split at spec
  next handles last made =>
    obtain ⟨paths,hosts,log⟩ := spec
    rw [made] at after others elsewhere ⊢
    have length : handles.length = files.length := by simpa using congrArg List.length paths
    refine ⟨files,after.balanced,others,elsewhere,fun refreshed ok => ?_,by simp⟩
    cases ok
    refine ⟨by rw [length],rfl,by simpa using paths,fun handle member => ?_,by simpa using log⟩
    exact (hosts handle (by simpa using member)).resolve_left (by simp)
  next fault last made =>
    obtain ⟨before,failed,later,split,log⟩ := spec
    rw [made] at after others elsewhere sets ⊢
    refine ⟨before,after.balanced,others,elsewhere,by simp,fun _ _ => ⟨?_,⟨failed,later,split⟩,by simpa using log⟩⟩
    simpa using sets

end World

/-- A host with room for two watches. -/
def World.roomy : World MemoryHost := {hosts := ⟨[{watchBudget := some 2}]⟩}

/-- One of them is taken. -/
def World.crowded : World MemoryHost := (World.roomy.rewatch (.recorder 0) 0 [⟨"/a"⟩]).2

theorem crowded_reachable : Reachable World.crowded := by
  have fresh : World.roomy.Fresh := ⟨rfl,fun _ => rfl,fun _ => rfl,fun h => by cases h <;> exact ⟨rfl,rfl,rfl⟩⟩
  have opened : (Environment.scripted ⟨fun _ => .error "",fun _ _ _ => .error ""⟩ (fun _ _ => .done) 0).perform
      (.rewatch 0 0 [⟨"/a"⟩]) World.roomy = some (_,World.crowded) := rfl
  exact ⟨World.roomy,fresh,.perform (.refl _) opened⟩

end Phrasebook
