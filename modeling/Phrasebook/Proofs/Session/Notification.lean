import Phrasebook.Proofs.Session.Accounting
import Phrasebook.Proofs.Session.Routine
import Phrasebook.Proofs.Session.Stacking

/-! Which callbacks a notification makes. It fires the watches that are open on the path when it begins, each in
its turn, and does not look again whether they still are: `notified_live_iff`. So a watch that was closed before
stays silent, and one that is closed by an earlier callback of the same notification does not: `abreast_stray`. -/
namespace Phrasebook

namespace MemoryHost

variable {a b c host state : MemoryHost} {id : WatchId} {path : Path} {subscriber : Subscriber}

/-- What is open now was open before, or was opened since and has a number of its own. -/
structure Ages (a b : MemoryHost) : Prop where
  opened : a.opened ≤ b.opened
  watches : ∀ watch ∈ b.watches, watch ∈ a.watches ∨ a.opened ≤ watch.id

theorem Ages.refl (host : MemoryHost) : host.Ages host := ⟨Nat.le_refl _,fun _ => .inl⟩

theorem Ages.trans (first : a.Ages b) (next : b.Ages c) : a.Ages c where
  opened := Nat.le_trans first.opened next.opened
  watches watch member := by
    rcases next.watches watch member with known | new
    · exact first.watches watch known
    · exact .inr (Nat.le_trans first.opened new)

theorem SameWatches.ages (same : host.SameWatches state) : host.Ages state :=
  ⟨Nat.le_of_eq same.opened.symm,fun _ member => .inl (same.watches ▸ member)⟩

theorem ages_close (host : MemoryHost) (id : WatchId) : host.Ages (host.close id) where
  opened := by
    unfold close
    split
    · exact Nat.le_refl _
    · exact Nat.le_refl _
  watches watch member := by
    rw [watches_close] at member
    exact .inl (List.mem_filter.mp member).1

theorem ages_watch (opens : Host.watch path subscriber host = .ok (id,state)) : host.Ages state := by
  obtain ⟨rfl,opened,-,watches⟩ := watch_eq_ok opens
  refine ⟨opened ▸ Nat.le_succ _,fun watch member => ?_⟩
  rw [watches,List.mem_append,List.mem_singleton] at member
  rcases member with known | rfl
  · exact .inl known
  · exact .inr (Nat.le_refl _)

end MemoryHost

namespace World

variable {a b w : World MemoryHost}

/-- On every host, what is open was open before or was opened since. -/
def Ages (a b : World MemoryHost) : Prop := ∀ h, (a.host h).Ages (b.host h)

theorem Ages.setHost {h : Nat} {state : MemoryHost} (ages : a.Ages b) (next : (b.host h).Ages state) :
    a.Ages (b.setHost h state) := by
  intro g
  rw [host_setHost]
  split
  next here => subst g; exact (ages h).trans next
  · exact ages g

theorem Ages.close (ages : a.Ages b) (handle : Handle) : a.Ages (b.close handle) :=
  ages.setHost (MemoryHost.ages_close _ _)

theorem Ages.setWatches (ages : a.Ages b) (owner : Subscriber) (handles : List Handle) :
    a.Ages (b.setWatches owner handles) := by
  intro h
  rw [host_setWatches]
  exact ages h

theorem Ages.unwatch (ages : a.Ages b) (owner : Subscriber) : a.Ages (b.unwatch owner) :=
  unwatch_keeps (P := a.Ages) (fun handle ages => ages.close handle) (fun handles ages => ages.setWatches owner handles)
    ages

theorem Ages.rewatch (ages : a.Ages b) (owner : Subscriber) (h : Nat) (files : List Path) :
    a.Ages (b.rewatch owner h files).2 :=
  rewatch_keeps (P := a.Ages) (fun handle ages => ages.close handle) (fun handles ages => ages.setWatches owner handles)
    (fun opens ages => ages.setHost (MemoryHost.ages_watch opens)) files ages

theorem ages_lasting (issued : Command → Prop) : Lasting issued Ages where
  refl w h := .refl _
  trans first next h := (first h).trans (next h)
  step ages step := by
    cases step with
    | host h state same => exact ages.setHost same.ages
    | rewatch s context files => exact ages.rewatch _ _ _
    | rewatchRecorder r h files => exact ages.rewatch _ _ _
    | unwatchRecorder r => exact ages.unwatch _
    | release s =>
      unfold World.release
      split
      · exact ages.unwatch _
      · exact ages
    | dispose s =>
      have retired : Ages _ (World.retire s _) := ages
      exact retired.unwatch _
    | _ => exact ages

/-- Nothing that was told is taken back. -/
theorem trace_lasting (issued : Command → Prop) : Lasting issued fun a b => a.trace <+: b.trace where
  refl w := List.prefix_rfl
  trans := List.IsPrefix.trans
  step := by
    intro a b c told step
    have more {w : World MemoryHost} (entry : Entry) (told : a.trace <+: w.trace) :
        a.trace <+: (w.record entry).trace :=
      told.trans (List.prefix_append _ _)
    have sets {w : World MemoryHost} (owner : Subscriber) (handles : List Handle) (told : a.trace <+: w.trace) :
        a.trace <+: (w.setWatches owner handles).trace := by
      cases owner with
      | session s => exact more _ told
      | recorder r => exact told
    have closed (owner : Subscriber) {w : World MemoryHost} (told : a.trace <+: w.trace) :
        a.trace <+: (w.unwatch owner).trace :=
      unwatch_keeps (P := fun v => a.trace <+: v.trace) (fun _ told => more _ told) (fun _ => sets _ _) told
    have rewatched (owner : Subscriber) (h : Nat) (files : List Path) : a.trace <+: (b.rewatch owner h files).2.trace :=
      rewatch_keeps (P := fun v => a.trace <+: v.trace) (fun _ told => more _ told) (fun _ => sets _ _)
        (fun _ told => more _ told) files told
    cases step with
    | record | request | start | finish | create | configure | activate => exact more _ told
    | rewatch | rewatchRecorder => exact rewatched _ _ _
    | unwatchRecorder => exact closed _ told
    | release s =>
      unfold World.release
      split
      · exact closed _ told
      · exact told
    | dispose s => exact closed _ (more (.reached s .disposed) told)
    | _ => exact told

/-- A watch of that number was opened and has been closed. -/
def Shut (h : Nat) (id : WatchId) (w : World MemoryHost) : Prop :=
  id < (w.host h).opened ∧ ∀ watch ∈ (w.host h).watches, watch.id ≠ id

/-- What is closed is closed for good. -/
theorem Shut.ages {h : Nat} {id : WatchId} (shut : a.Shut h id) (ages : a.Ages b) : b.Shut h id := by
  refine ⟨Nat.lt_of_lt_of_le shut.1 (ages h).opened,fun watch member same => ?_⟩
  rcases (ages h).watches watch member with known | new
  · exact shut.2 watch known same
  · exact Nat.not_lt.mpr new (same ▸ shut.1)

end World

/-- A callback of a watch, from its turn until it is over. -/
structure Callback where
  watch : Watch
  before : World MemoryHost
  after : World MemoryHost

namespace Callback

/-- When its turn comes, the watch is open. -/
def Live (h : Nat) (callback : Callback) : Prop := callback.watch ∈ (callback.before.host h).watches

/-- A watch is closed in the course of the callback. -/
def Closes (h : Nat) (callback : Callback) (watch : Watch) : Prop :=
  watch ∈ (callback.before.host h).watches ∧ watch ∉ (callback.after.host h).watches

end Callback

/-- Callbacks are made one after the other. -/
inductive Environment.Fires (env : Environment MemoryHost) :
    List Callback → World MemoryHost → World MemoryHost → Prop where
  | done (w : World MemoryHost) : Fires env [] w w
  | fire {watch : Watch} {callbacks : List Callback} {u x v : World MemoryHost} (fired : env.fire watch u = some x)
      (rest : Fires env callbacks x v) : Fires env (⟨watch,u,x⟩ :: callbacks) u v

section Callbacks

variable {env : Environment MemoryHost} {callbacks : List Callback} {u v w x : World MemoryHost} {h s : Nat}
  {watch : Watch}

theorem Environment.fireAll_fires {watches : List Watch} (run : env.fireAll watches u = some v) :
    ∃ callbacks, env.Fires callbacks u v ∧ callbacks.map (·.watch) = watches := by
  induction watches generalizing u with
  | nil => cases run; exact ⟨[],.done _,rfl⟩
  | cons watch rest ih =>
    simp only [Environment.fireAll,Option.bind_eq_bind,Option.bind_eq_some_iff] at run
    obtain ⟨x,fired,run⟩ := run
    obtain ⟨callbacks,fires,watches⟩ := ih run
    exact ⟨⟨watch,u,x⟩ :: callbacks,.fire fired fires,by rw [List.map_cons,watches]⟩

namespace Environment.Fires

variable {issued : Command → Prop}

/-- What every step keeps holds from the start of a notification to each of its callbacks. -/
theorem lasting {R : World MemoryHost → World MemoryHost → Prop} (lasting : Lasting issued R)
    (heard : ∀ {entry w w'}, env.respond entry w = some w' → R w w') (fires : env.Fires callbacks u v) :
    ∀ callback ∈ callbacks, R u callback.before := by
  induction fires with
  | done w => simp
  | @fire watch callbacks u x v fired rest ih =>
    intro callback member
    rcases List.mem_cons.mp member with rfl | later
    · exact lasting.refl u
    · exact lasting.trans ((lasting.carries heard).fire fired) (ih callback later)

theorem fired (fires : env.Fires callbacks u v) :
    ∀ callback ∈ callbacks, env.fire callback.watch callback.before = some callback.after := by
  induction fires with
  | done w => simp
  | fire fired rest ih => exact List.forall_mem_cons.mpr ⟨fired,ih⟩

/-- What is fired, and when, decides on what comes of it. -/
theorem unique {others : List Callback} (fires : env.Fires callbacks u v) (other : env.Fires others u x)
    (same : callbacks.map (·.watch) = others.map (·.watch)) : callbacks = others := by
  induction fires generalizing others with
  | done u =>
    cases other with
    | done => rfl
    | fire => cases same
  | fire fired rest ih =>
    cases other with
    | done => cases same
    | fire fired' rest' =>
      obtain ⟨watch,later⟩ := List.cons.inj same
      cases watch
      obtain rfl := Option.some.inj (fired.symm.trans fired')
      rw [ih rest' later]

/-- A watch is open at a turn if it was open at the start and no callback has closed it so far. -/
theorem open_iff (ages : ∀ {watch u x}, env.fire watch u = some x → u.Ages x) (fires : env.Fires callbacks u v)
    (known : watch.id < (u.host h).opened) {i : Nat} {callback : Callback} (turn : callbacks[i]? = some callback) :
    watch ∈ (callback.before.host h).watches ↔ watch ∈ (u.host h).watches ∧
      ∀ j other, j < i → callbacks[j]? = some other → ¬other.Closes h watch := by
  induction fires generalizing i with
  | done w => simp at turn
  | @fire first callbacks u x v fired rest ih =>
    have aged := ages fired h
    cases i with
    | zero =>
      cases turn
      simp
    | succ i =>
      rw [ih (Nat.lt_of_lt_of_le known aged.opened) turn]
      constructor
      · rintro ⟨still,spared⟩
        -- what the callback opens has a number of its own, so the watch was open before it
        have was : watch ∈ (u.host h).watches :=
          (aged.watches watch still).resolve_right (Nat.not_le.mpr known)
        refine ⟨was,fun j other earlier found closes => ?_⟩
        cases j with
        | zero => cases found; exact closes.2 still
        | succ j => exact spared j other (Nat.lt_of_succ_lt_succ earlier) found closes
      · rintro ⟨was,spared⟩
        refine ⟨?_,fun j other earlier found => spared (j + 1) other (Nat.succ_lt_succ earlier) found⟩
        by_contra closed
        exact spared 0 _ i.succ_pos rfl ⟨was,closed⟩

end Environment.Fires

/-- A session that is there says that a watched file changed, whether or not the watch is open. -/
theorem Environment.fire_session {issued : Command → Prop} (issues : env.Issues issued)
    (subscribed : watch.subscriber = .session s) (fired : env.fire watch u = some x) :
    if u.gone s then x = u
    else ∀ sink, (u.session s).sink = some sink → u.emissions ++ [(sink,.fileChanged watch.path)] <+: x.emissions := by
  rw [fire,subscribed] at fired
  cases gone : u.gone s with
  | true =>
    simp only [env.fileChanged_of_gone gone,Option.some.injEq] at fired
    exact fired.symm
  | false =>
    intro sink listens
    have lasting := World.trace_lasting issued
    obtain ⟨told,made,emit,regenerate,rfl⟩ := (env.fileChanged_of_there gone).mp fired
    rw [Environment.emit,World.session_record,World.session_hold,listens] at emit
    have later := lasting.trans (issues lasting emit) (lasting.regenerate (issues lasting) regenerate)
    have left := lasting.step (lasting.step later (.leave s)) (.release s)
    have grown := List.IsPrefix.filterMap Entry.emission? left
    have heard : (((u.hold s).record (.noted (.fileChanged watch.path))).record
        (.emitted sink (.fileChanged watch.path))).emissions = u.emissions ++ [(sink,.fileChanged watch.path)] := by
      simp only [World.emissions_record,Entry.emission?]
      exact congrArg (· ++ _) (List.append_nil _)
    exact heard ▸ grown

/-- Which callbacks a notification makes at any moment, whoever does what in the course of them. It fires the watches
that are open on the path when it begins, in their order. So one that was closed before is not among them, and the
watch of each is open at its turn, and held by its subscriber, exactly if no earlier callback of the notification has
closed it; but a session that is told of a change passes it on either way, unless it is gone. -/
theorem notified_live_iff {tools : Toolchain} {behaviour : Behaviour} {depth h count : Nat} {path : Path}
    {start w v : World MemoryHost} (fresh : start.Fresh) (since : Later (fun _ => True) start w)
    (run : (Environment.scripted tools behaviour depth).notify h path w = some (count,v)) :
    ∃ callbacks, (Environment.scripted tools behaviour depth).Fires callbacks (w.setHost h (w.host h).prune) v ∧
      callbacks.map (·.watch) = (w.host h).watchesOn path ∧ callbacks.length = count ∧
      (∀ earlier id, Later (fun _ => True) earlier w → earlier.Shut h id →
        ∀ callback ∈ callbacks, callback.watch.id ≠ id) ∧
      (∀ (i : Nat) (callback : Callback), callbacks[i]? = some callback → (callback.Live h ↔
        ∀ (j : Nat) (other : Callback), j < i → callbacks[j]? = some other → ¬other.Closes h callback.watch)) ∧
      ∀ callback ∈ callbacks, ∀ s, callback.watch.subscriber = .session s →
        (callback.Live h → callback.watch.handle h ∈ (callback.before.session s).watches) ∧
        if callback.before.gone s then callback.after = callback.before
        else ∀ sink, (callback.before.session s).sink = some sink →
          callback.before.emissions ++ [(sink,.fileChanged callback.watch.path)] <+: callback.after.emissions := by
  let env := Environment.scripted tools behaviour depth
  have issues : env.Issues fun _ => True := Environment.scripted_issues_any tools behaviour depth
  have accounted : w.Accounted := (World.accounted_lasting _).later since fresh.accounted
  simp only [Environment.notify,Option.bind_eq_bind,Option.bind_eq_some_iff] at run
  obtain ⟨fired,run,made⟩ := run
  cases made
  have pruned : (w.host h).prune.watches = (w.host h).watches := (MemoryHost.prune_sameWatches _).watches
  have snapshot : (w.host h).prune.watchesOn path = (w.host h).watchesOn path := by
    rw [MemoryHost.watchesOn,pruned,MemoryHost.watchesOn]
  rw [snapshot] at run ⊢
  obtain ⟨callbacks,fires,watches⟩ := Environment.fireAll_fires run
  have member {callback : Callback} (made : callback ∈ callbacks) : callback.watch ∈ (w.host h).watches := by
    have listed : callback.watch ∈ (w.host h).watchesOn path := watches ▸ List.mem_map_of_mem made
    exact (List.mem_filter.mp listed).1
  refine ⟨callbacks,fires,watches,by rw [← watches,List.length_map],?_,?_,?_⟩
  · intro earlier id later shut callback made
    exact (shut.ages ((World.ages_lasting _).later later)).2 _ (member made)
  · intro i callback turn
    have ages := World.ages_lasting fun _ => True
    have listed := member (List.mem_of_getElem? turn)
    have first : callback.watch ∈ ((w.setHost h (w.host h).prune).host h).watches := by
      rw [World.host_setHost,if_pos rfl,pruned]
      exact listed
    have known : callback.watch.id < ((w.setHost h (w.host h).prune).host h).opened := by
      rw [World.host_setHost,if_pos rfl]
      exact (accounted.sound h).fresh _ listed
    refine (fires.open_iff (fun fired => (ages.carries (issues ages)).fire fired) known turn).trans ?_
    exact ⟨And.right,fun spared => ⟨first,spared⟩⟩
  · intro callback made s subscribed
    refine ⟨fun live => ?_,Environment.fire_session issues subscribed (fires.fired callback made)⟩
    have lasting := World.accounted_lasting fun _ => True
    have begun : (w.setHost h (w.host h).prune).Accounted :=
      lasting.once (.host h _ (MemoryHost.prune_sameWatches _)) accounted
    have held := (fires.lasting lasting (issues lasting) callback made begun).mem live
    rwa [subscribed] at held

end Callbacks

section Once

variable {env : Environment MemoryHost} {s : Nat} {w v : World MemoryHost}

/-- A session that is there hears of a change, and makes one run. -/
def Environment.changeOnce (env : Environment MemoryHost) (s : Nat) (path : Path) (w : World MemoryHost) :
    Option (World MemoryHost) :=
  if w.gone s then none
  else do
    let told ← env.emit s (.fileChanged path) ((w.hold s).record (.noted (.fileChanged path)))
    some (((← env.regenerateOnce s told).leave s).release s)

theorem Environment.fileChanged_of_once {path : Path} (run : env.changeOnce s path w = some v) :
    env.fileChanged s path w = some v := by
  rw [changeOnce] at run
  split at run
  · contradiction
  next there =>
    simp only [Option.bind_eq_bind,Option.bind_eq_some_iff] at run
    obtain ⟨told,emit,made,once,left⟩ := run
    exact (env.fileChanged_of_there (by simpa using there)).mpr
      ⟨told,made,emit,regenerate_of_once once,Option.some.inj left⟩

end Once

section Abreast

/-- The generator of the first session disposes of the second on its second call. -/
def Environment.meddling : Environment MemoryHost :=
  .scripted Environment.stamping.toolchain
    (fun entry _ =>
      match entry with
      | .generating 0 2 => .issue (.dispose 1) fun _ => .done
      | _ => .done) 1

/-- Two sessions watch the same file. -/
def World.abreast : World MemoryHost :=
  ((Environment.meddling.refreshOnce 0 .paired).bind (Environment.meddling.refreshOnce 1)).getD .paired

theorem abreast_reachable : Reachable World.abreast := by
  have made : ((Environment.meddling.refreshOnce 0 .paired).any fun half =>
      (Environment.meddling.refreshOnce 1 half).isSome) = true := by
    decide +kernel
  obtain ⟨half,first,rest⟩ := (Option.any_eq_true _ _).mp made
  obtain ⟨w,second⟩ := Option.isSome_iff_exists.mp rest
  have same : World.abreast = w := by
    rw [World.abreast,first,Option.bind_some,second,Option.getD_some]
  obtain ⟨start,blank,passes⟩ := paired_stacked.passes
  have half := passes.leads.perform (Environment.refresh_of_once first)
  exact ⟨start,blank.toFresh,same ▸ half.perform (Environment.refresh_of_once second)⟩

/-- The file has been edited, and the watches are about to be fired. -/
def World.abreastEdited : World MemoryHost :=
  World.abreast.setHost 0 ((World.abreast.host 0).insert ⟨"/p/locales/en.yaml"⟩ "c: d")

def World.abreastFiring : World MemoryHost := World.abreastEdited.setHost 0 (World.abreastEdited.host 0).prune

def firstWatch : Watch := {id := 0,path := ⟨"/p/locales/en.yaml"⟩,subscriber := .session 0}

def secondWatch : Watch := {id := 1,path := ⟨"/p/locales/en.yaml"⟩,subscriber := .session 1}

theorem abreast_watches : (World.abreast.host 0).watches = [firstWatch,secondWatch] := by decide +kernel

theorem abreast_fires : ∃ u v, Environment.meddling.notify 0 ⟨"/p/locales/en.yaml"⟩ .abreastEdited = some (2,v) ∧
    Environment.meddling.fire firstWatch .abreastFiring = some u ∧ Environment.meddling.fire secondWatch u = some v ∧
    secondWatch ∉ (u.host 0).watches ∧ (u.session 1).phase = .disposed ∧ (u.session 1).dropped = false ∧
    (u.session 1).sink = some 1 ∧ v.emissions = u.emissions ++ [(1,.fileChanged ⟨"/p/locales/en.yaml"⟩)] := by
  have ran : (Environment.meddling.changeOnce 0 ⟨"/p/locales/en.yaml"⟩ .abreastFiring).any (fun u =>
      (secondWatch ∉ (u.host 0).watches ∧ (u.session 1).phase = .disposed ∧ (u.session 1).dropped = false ∧
        (u.session 1).sink = some 1) ∧
      (Environment.meddling.changeOnce 1 ⟨"/p/locales/en.yaml"⟩ u).any fun v =>
        v.emissions = u.emissions ++ [(1,.fileChanged ⟨"/p/locales/en.yaml"⟩)]) = true := by
    decide +kernel
  obtain ⟨u,first,facts⟩ := (Option.any_eq_true _ _).mp ran
  obtain ⟨⟨closed,disposed,held,sink⟩,rest⟩ := of_decide_eq_true facts
  obtain ⟨v,second,heard⟩ := (Option.any_eq_true _ _).mp rest
  have one : Environment.meddling.fire firstWatch .abreastFiring = some u := Environment.fileChanged_of_once first
  have two : Environment.meddling.fire secondWatch u = some v := Environment.fileChanged_of_once second
  have snapshot : (World.abreastEdited.host 0).prune.watchesOn ⟨"/p/locales/en.yaml"⟩ = [firstWatch,secondWatch] := by
    decide +kernel
  refine ⟨u,v,?_,one,two,closed,disposed,held,sink,of_decide_eq_true heard⟩
  rw [Environment.notify,snapshot]
  change (do some (2,← Environment.meddling.fireAll [firstWatch,secondWatch] .abreastFiring)) = some (2,v)
  simp [Environment.fireAll,one,two]

/-- The first session's callback disposes of the second, whose watch is closed thereby; it is fired all the same, and
the session says so. -/
theorem abreast_stray : Reachable World.abreast ∧ (World.abreast.host 0).watches = [firstWatch,secondWatch] ∧
    ∃ u v, Environment.meddling.perform (.edit 0 ⟨"/p/locales/en.yaml"⟩ "c: d") .abreast = some (.done,v) ∧
      Environment.meddling.fire firstWatch .abreastFiring = some u ∧ Environment.meddling.fire secondWatch u = some v ∧
      secondWatch ∉ (u.host 0).watches ∧ (u.session 1).phase = .disposed ∧
      v.emissions = u.emissions ++ [(1,.fileChanged ⟨"/p/locales/en.yaml"⟩)] := by
  obtain ⟨u,v,notify,first,second,closed,disposed,-,-,heard⟩ := abreast_fires
  refine ⟨abreast_reachable,abreast_watches,u,v,?_,first,second,closed,disposed,heard⟩
  rw [Environment.perform]
  change (Environment.meddling.notify 0 ⟨"/p/locales/en.yaml"⟩ .abreastEdited).bind _ = _
  rw [notify]
  rfl

/-- The second watch is not open at its turn, as the first callback has closed it. -/
theorem abreast_second_not_live : ∃ first second v,
    Environment.meddling.notify 0 ⟨"/p/locales/en.yaml"⟩ .abreastEdited = some (2,v) ∧
    Environment.meddling.Fires [first,second] .abreastFiring v ∧ second.watch = secondWatch ∧
    first.Closes 0 second.watch ∧ ¬second.Live 0 ∧ (second.before.session 1).phase = .disposed ∧
    second.before.emissions ++ [(1,.fileChanged ⟨"/p/locales/en.yaml"⟩)] <+: second.after.emissions := by
  obtain ⟨u,v,notify,one,two,closed,disposed,held,sink,-⟩ := abreast_fires
  obtain ⟨start,fresh,leads⟩ := abreast_reachable
  have edited : Move (fun _ => True) World.abreast World.abreast World.abreastEdited := .edit 0 _ _ trivial
  have since : Later (fun _ => True) start World.abreastEdited :=
    .trans ((Later.lasting _).leads leads) (.step (.refl _) edited.toStep)
  obtain ⟨callbacks,fires,watches,length,-,live,told⟩ := notified_live_iff fresh since notify
  have snapshot : (World.abreastEdited.host 0).watchesOn ⟨"/p/locales/en.yaml"⟩ = [firstWatch,secondWatch] := by
    decide +kernel
  rw [snapshot] at watches
  have made : Environment.meddling.Fires [⟨firstWatch,.abreastFiring,u⟩,⟨secondWatch,u,v⟩] .abreastFiring v :=
    .fire one (.fire two (.done v))
  obtain rfl := fires.unique made watches
  have closes : Callback.Closes 0 ⟨firstWatch,.abreastFiring,u⟩ secondWatch := by
    have listed : secondWatch ∈ (World.abreastFiring.host 0).watches := by decide +kernel
    exact ⟨listed,closed⟩
  obtain ⟨-,heard⟩ := told _ (List.mem_cons_of_mem _ (List.mem_singleton.mpr rfl)) 1 rfl
  rw [if_neg (by simp [World.gone_of_held held])] at heard
  exact ⟨_,_,v,notify,made,rfl,closes,fun still => (live 1 _ rfl).mp still 0 _ Nat.zero_lt_one rfl closes,disposed,
    heard 1 sink⟩

end Abreast
end Phrasebook
