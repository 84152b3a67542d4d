import Phrasebook.Proofs.Session.Routine

/-! What comes of giving a session options and of taking them away, while collaborators only listen. Options are
turned down, `World.Spurns`, or adopted, `World.Adopted`, which lays the session over the resolver of its hook
unless that was tried before: `World.Hooked`. No command lays more than one session: `silent_hooks`. -/
namespace Phrasebook

theorem Hook.wrap?_eq_some {hook wrapped : Hook} {layer : Layer} (laid : hook.wrap? layer = some wrapped) :
    hook.hasResolver ∧ wrapped = {hook with layers := layer :: hook.layers} := by
  rw [wrap?] at laid
  split at laid
  next resolver => cases laid; exact ⟨resolver,rfl⟩
  · contradiction

namespace World

/-- Without a logger nothing is said. -/
def say (logger : Option Nat) (line : String) (w : World MemoryHost) : World MemoryHost :=
  match logger with
  | some logger => w.record (.logged logger line)
  | none => w

def tell (s : Nat) (event : Event) (w : World MemoryHost) : World MemoryHost :=
  match (w.session s).sink with
  | some sink => w.record (.emitted sink event)
  | none => w

section Remarks

variable (w : World MemoryHost) (s t h : Nat) (logger : Option Nat) (line : String) (event : Event)

@[simp] theorem hooks_modify (f : Session → Session) : (w.modify s f).hooks = w.hooks := rfl
@[simp] theorem hooks_setHook (hook : Hook) : (w.setHook h hook).hooks = w.hooks.put h hook := rfl
@[simp] theorem recorders_modify (f : Session → Session) : (w.modify s f).recorders = w.recorders := rfl
@[simp] theorem recorders_setHook (hook : Hook) : (w.setHook h hook).recorders = w.recorders := rfl

@[simp] theorem hooks_reach (milestone : Milestone) (f : Session → Session) :
    (w.reach s milestone f).hooks = w.hooks := rfl

@[simp] theorem recorders_reach (milestone : Milestone) (f : Session → Session) :
    (w.reach s milestone f).recorders = w.recorders := rfl

theorem tell_hold : (w.hold t).tell s event = (w.tell s event).hold t := by
  simp only [tell,session_hold]
  split <;> rfl

@[simp] theorem session_say : (w.say logger line).session t = w.session t := by cases logger <;> rfl
@[simp] theorem host_say : (w.say logger line).host h = w.host h := by cases logger <;> rfl
@[simp] theorem hooks_say : (w.say logger line).hooks = w.hooks := by cases logger <;> rfl
@[simp] theorem recorders_say : (w.say logger line).recorders = w.recorders := by cases logger <;> rfl

@[simp] theorem history_say : (w.say logger line).history t = w.history t := by
  cases logger <;> simp [say,Entry.milestone?]

@[simp] theorem emissions_say : (w.say logger line).emissions = w.emissions := by
  cases logger with
  | none => rfl
  | some logger => exact (emissions_record _ _).trans (List.append_nil _)

@[simp] theorem session_tell : (w.tell s event).session t = w.session t := by unfold tell; split <;> rfl
@[simp] theorem host_tell : (w.tell s event).host h = w.host h := by unfold tell; split <;> rfl
@[simp] theorem hooks_tell : (w.tell s event).hooks = w.hooks := by unfold tell; split <;> rfl
@[simp] theorem recorders_tell : (w.tell s event).recorders = w.recorders := by unfold tell; split <;> rfl

@[simp] theorem history_tell : (w.tell s event).history t = w.history t := by
  unfold tell
  split <;> simp [Entry.milestone?]

theorem emissions_tell :
    (w.tell s event).emissions = w.emissions ++ ((w.session s).sink.map (·,event)).toList := by
  unfold tell
  split
  next sink found => rw [emissions_record,found]; rfl
  next none => rw [none]; exact (List.append_nil _).symm

@[simp] theorem hookings_say : (w.say logger line).hookings = w.hookings := by rw [hookings,emissions_say,hookings]

/-- The one event that counts is heard by a session's sink, if it has one. -/
@[simp] theorem hookings_tell : (w.tell s event).hookings =
    w.hookings + if event = .resolverHooked ∧ (w.session s).sink.isSome then 1 else 0 := by
  rw [hookings,emissions_tell,List.countP_append,← hookings]
  cases (w.session s).sink <;> simp [List.countP_cons]

@[simp] theorem hookings_modify (f : Session → Session) : (w.modify s f).hookings = w.hookings := rfl
@[simp] theorem hookings_setHook (hook : Hook) : (w.setHook h hook).hookings = w.hookings := rfl

@[simp] theorem hookings_reach (milestone : Milestone) (f : Session → Session) :
    (w.reach s milestone f).hookings = w.hookings := by
  rw [hookings,emissions_reach,hookings]

end Remarks

/-- No session has been laid over a resolver. -/
structure Unhooked (a b : World MemoryHost) : Prop where
  hooks : b.hooks = a.hooks
  hookings : b.hookings = a.hookings
  histories : ∀ t, ∃ news, b.history t = a.history t ++ news ∧ .hooked ∉ news

/-- A session has been laid over the resolver of its hook, for the first time, and that was heard of once. -/
structure Hooked (s : Nat) (a b : World MemoryHost) : Prop where
  first : (a.session s).installed = false
  installed : (b.session s).installed = true
  laid : ∃ hook wrapped, (b.session s).hook = some hook ∧ (a.hooks.get hook).wrap? (.session s) = some wrapped ∧
    b.hooks = a.hooks.put hook wrapped
  hookings : b.hookings = a.hookings + if (a.session s).sink.isSome then 1 else 0
  own : ∃ news, b.history s = a.history s ++ news ∧ .hooked ∈ news
  others : ∀ t, t ≠ s → ∃ news, b.history t = a.history t ++ news ∧ .hooked ∉ news

theorem Unhooked.trans {a b c : World MemoryHost} (first : Unhooked a b) (next : Unhooked b c) : Unhooked a c where
  hooks := next.hooks.trans first.hooks
  hookings := next.hookings.trans first.hookings
  histories t := by
    obtain ⟨news,start,none⟩ := first.histories t
    obtain ⟨more,rest,none'⟩ := next.histories t
    exact ⟨news ++ more,by rw [rest,start,List.append_assoc],by simp [none,none']⟩

/-- Nothing else is laid before or after it. -/
theorem Hooked.between {s : Nat} {a b c d : World MemoryHost} (before : Unhooked a b) (hooked : Hooked s b c)
    (after : Unhooked c d) (first : (a.session s).installed = (b.session s).installed)
    (sink : (a.session s).sink = (b.session s).sink) (installed : (d.session s).installed = (c.session s).installed)
    (hook : (d.session s).hook = (c.session s).hook) : Hooked s a d where
  first := first.trans hooked.first
  installed := installed.trans hooked.installed
  laid := by
    obtain ⟨i,wrapped,place,laid,hooks⟩ := hooked.laid
    exact ⟨i,wrapped,hook.trans place,before.hooks ▸ laid,by rw [after.hooks,hooks,before.hooks]⟩
  hookings := by rw [after.hookings,hooked.hookings,before.hookings,sink]
  own := by
    obtain ⟨news,start,-⟩ := before.histories s
    obtain ⟨more,rest,laid⟩ := hooked.own
    obtain ⟨last,ends,-⟩ := after.histories s
    exact ⟨news ++ more ++ last,by simp [ends,rest,start],by simp [laid]⟩
  others t other := by
    obtain ⟨news,start,none⟩ := before.histories t
    obtain ⟨more,rest,none'⟩ := hooked.others t other
    obtain ⟨last,ends,none''⟩ := after.histories t
    exact ⟨news ++ more ++ last,by simp [ends,rest,start],by simp [none,none',none'']⟩

end World

/-- Milestones that no adopting command caused. -/
theorem Gains.unadopted {issued : Command → Prop} {t : Nat} {a b : World MemoryHost} (gains : Gains issued t a b)
    (spares : ∀ command, issued command → ¬command.Adopts t) :
    ∃ news, b.history t = a.history t ++ news ∧ .hooked ∉ news ∧ ∀ config, .adopted config ∉ news := by
  obtain ⟨news,history,caused⟩ := gains
  have none {m : Milestone} (member : m ∈ news)
      (adopts : m.Caused issued t → ∃ command, issued command ∧ command.Adopts t) : False := by
    obtain ⟨command,allowed,adopts⟩ := adopts (caused m member)
    exact spares command allowed adopts
  exact ⟨news,history,fun member => none member id,fun config member => none member id⟩

theorem World.Works.unhooked {issued : Command → Prop} {p : Nat → Prop} {a b : World MemoryHost}
    (works : Works p a b) (gains : ∀ t, Gains issued t a b)
    (spares : ∀ t command, issued command → ¬command.Adopts t) : Unhooked a b where
  hooks := works.hooks
  hookings := works.hookings
  histories t := by
    obtain ⟨news,history,none,-⟩ := (gains t).unadopted (spares t)
    exact ⟨news,history,none⟩

/-- Options were turned down, or ignored. At most the session has been handed another host and hook. -/
structure World.Spurns (s : Nat) (a b : World MemoryHost) : Prop where
  spared : ∀ t, t ≠ s → b.session t = a.session t
  own : ∃ host logger hook, b.session s = {a.session s with host := host,logger := logger,hook := hook} ∧
    (((a.session s).host.isSome → (a.session s).hook.isSome) → host.isSome → hook.isSome)
  hosts : ∀ h, b.host h = a.host h
  hooks : b.hooks = a.hooks
  recorders : b.recorders = a.recorders
  hookings : b.hookings = a.hookings
  histories : ∀ t, b.history t = a.history t

namespace World.Spurns

variable {s : Nat} {a b : World MemoryHost}

theorem refl (s : Nat) (w : World MemoryHost) : Spurns s w w :=
  ⟨fun _ _ => rfl,⟨_,_,_,rfl,id⟩,fun _ => rfl,rfl,rfl,rfl,fun _ => rfl⟩

theorem introduce (s : Nat) (platform : Option Nat) (hook logger : Nat) (w : World MemoryHost) :
    Spurns s w (w.modify s fun session => {session with host := platform,logger := some logger,hook := some hook}) := by
  refine ⟨fun t other => ?_,⟨platform,some logger,some hook,by simp,fun _ _ => rfl⟩,by simp,by simp,by simp,by simp,
    by simp⟩
  simp [Ne.symm other]

theorem say (spurns : Spurns s a b) (logger : Option Nat) (line : String) : Spurns s a (b.say logger line) := by
  obtain ⟨spared,own,hosts,hooks,recorders,hookings,histories⟩ := spurns
  constructor <;> simpa

theorem tell (spurns : Spurns s a b) {event : Event} (unlike : event ≠ .resolverHooked) :
    Spurns s a (b.tell s event) := by
  obtain ⟨spared,own,hosts,hooks,recorders,hookings,histories⟩ := spurns
  constructor <;> simpa [unlike]

theorem unhooked (spurns : Spurns s a b) : Unhooked a b :=
  ⟨spurns.hooks,spurns.hookings,fun t => ⟨[],by simp [spurns.histories],by simp⟩⟩

end World.Spurns

/-- Options pass only with a host. -/
theorem Config.manned_of_check {options : Json} {platform : Option MemoryHost} {config : Config}
    (accepted : Config.check options platform = .ok config) : platform.isSome := by
  cases platform with
  | none => cases accepted
  | some host => rfl

/-- A session has adopted options and tried to lay itself over a resolver, now or before. -/
structure World.Adopted (s : Nat) (a b : World MemoryHost) : Prop where
  spared : ∀ t, t ≠ s → b.session t = a.session t
  recorders : b.recorders = a.recorders
  hook : (b.session s).hook.isSome
  installed : (b.session s).installed = true
  inFlight : (b.session s).inFlight = (a.session s).inFlight
  sink : (b.session s).sink = (a.session s).sink
  adopted : ∃ news config, b.history s = a.history s ++ news ∧ .adopted config ∈ news
  outcome : Unhooked a b ∨ Hooked s a b

/-- It may go on to work. -/
theorem World.Adopted.works {s : Nat} {a b c : World MemoryHost} (adopted : Adopted s a b)
    (works : Works (· = s) b c) (gains : ∀ t, Gains (fun _ => False) t b c) : Adopted s a c where
  spared t other := (works.spared t other).trans (adopted.spared t other)
  recorders := works.recorders.trans adopted.recorders
  hook := by
    rw [works.same (·.hook) (fun _ => rfl) s]
    exact adopted.hook
  installed := (works.same (·.installed) (fun _ => rfl) s).trans adopted.installed
  inFlight := (works.inFlight s).trans adopted.inFlight
  sink := (works.same (·.sink) (fun _ => rfl) s).trans adopted.sink
  adopted := by
    obtain ⟨news,config,history,adopts⟩ := adopted.adopted
    obtain ⟨more,rest,-⟩ := gains s
    exact ⟨news ++ more,config,by rw [rest,history,List.append_assoc],by simp [adopts]⟩
  outcome := by
    have after := works.unhooked gains (fun _ _ => False.elim)
    refine adopted.outcome.imp (·.trans after) fun hooked => ?_
    exact hooked.between ⟨rfl,rfl,fun t => ⟨[],by simp,by simp⟩⟩ after rfl rfl
      (works.same (·.installed) (fun _ => rfl) s) (works.same (·.hook) (fun _ => rfl) s)

namespace Environment.Quiet

variable {env : Environment MemoryHost} (quiet : env.Quiet) {s : Nat} {w v : World MemoryHost}

include quiet

theorem log_eq (logger : Option Nat) (line : String) (w : World MemoryHost) :
    env.log logger line w = some (w.say logger line) := by
  cases logger with
  | none => rfl
  | some logger => exact quiet _ _

theorem emit_eq (s : Nat) (event : Event) (w : World MemoryHost) : env.emit s event w = some (w.tell s event) := by
  unfold Environment.emit World.tell
  cases (w.session s).sink with
  | none => rfl
  | some sink => exact quiet _ _

/-- What every step keeps, they keep who do nothing. -/
theorem keeps {issued : Command → Prop} {R : World MemoryHost → World MemoryHost → Prop} (lasting : Lasting issued R)
    {entry : Entry} (run : env.respond entry w = some v) : R w v := by
  cases (quiet entry w).symm.trans run
  exact lasting.refl w

/-- What is tried once is not tried again, and without a resolver it comes to nothing. -/
theorem install_hooks {context : Context} {hook : Nat} (ready : (w.session s).context? = some context)
    (handed : (w.session s).hook = some hook) (run : env.install s w = some v) :
    (∀ t, t ≠ s → v.session t = w.session t) ∧ v.recorders = w.recorders ∧
    (∃ phase, v.session s = {w.session s with installed := true,phase := phase}) ∧
    (World.Unhooked w v ∨ World.Hooked s w v) := by
  simp only [Environment.install,ready,handed,quiet.log_eq,quiet.emit_eq,Option.bind_eq_bind,Option.bind_some] at run
  split at run
  next before =>
    cases run
    refine ⟨fun _ _ => rfl,rfl,⟨(w.session s).phase,by rw [← before]⟩,.inl ⟨rfl,rfl,fun t => ⟨[],by simp,by simp⟩⟩⟩
  next first =>
    have first : (w.session s).installed = false := by simpa using first
    split at run
    next wrapped laid =>
      cases run
      refine ⟨fun t other => ?_,by simp [World.activate],⟨.active,by simp [World.activate]⟩,.inr {
        first := first
        installed := by simp [World.activate]
        laid := ⟨hook,wrapped,by simpa [World.activate] using handed,laid,by simp [World.activate]⟩
        hookings := by simp [World.activate]
        own := ⟨[.hooked],by simp [World.activate],by simp⟩
        others := fun t other => ⟨[],by simp [World.activate,Ne.symm other],by simp⟩}⟩
      simp [World.activate,Ne.symm other]
    next refused =>
      cases run
      refine ⟨fun t other => ?_,by simp,⟨(w.session s).phase,by simp⟩,.inl {
        hooks := by simp
        hookings := by simp
        histories := fun t => ⟨[],by simp,by simp⟩}⟩
      simp [Ne.symm other]

/-- Options that pass are adopted, and then the session tries to lay itself over its resolver. -/
theorem adopts {config : Config} {phase : Phase} {event : Event} {u : World MemoryHost} (spurns : World.Spurns s w u)
    (host : (u.session s).host.isSome) (hook : (u.session s).hook.isSome) (unlike : event ≠ .resolverHooked)
    (run : env.install s ((u.adopt s config phase).tell s event) = some v) : World.Adopted s w v := by
  obtain ⟨platform,host⟩ := Option.isSome_iff_exists.mp host
  obtain ⟨i,hook⟩ := Option.isSome_iff_exists.mp hook
  have ready : (((u.adopt s config phase).tell s event).session s).context? =
      some ⟨platform,(u.session s).logger,config⟩ := by
    simp [World.adopt,Session.context?,host]
  have handed : (((u.adopt s config phase).tell s event).session s).hook = some i := by simp [World.adopt,hook]
  obtain ⟨spared,recorders,⟨later,own⟩,hooks⟩ := quiet.install_hooks ready handed run
  obtain ⟨_,_,_,same,-⟩ := spurns.own
  have told : World.Unhooked u ((u.adopt s config phase).tell s event) := by
    refine ⟨by simp [World.adopt],by simp [World.adopt,unlike],fun t => ⟨if s = t then [.adopted config] else [],?_,?_⟩⟩
    · simp [World.adopt]
    · split <;> simp
  have before := spurns.unhooked.trans told
  obtain ⟨more,rest⟩ : ∃ more, v.history s = ((u.adopt s config phase).tell s event).history s ++ more := by
    rcases hooks with unhooked | hooked
    · obtain ⟨more,rest,-⟩ := unhooked.histories s
      exact ⟨more,rest⟩
    · obtain ⟨more,rest,-⟩ := hooked.own
      exact ⟨more,rest⟩
  have history : v.history s = w.history s ++ .adopted config :: more := by
    rw [rest]
    simp [World.adopt,spurns.histories]
  exact {
    spared := fun t other => by
      rw [spared t other,← spurns.spared t other]
      simp [World.adopt,Ne.symm other]
    recorders := by
      rw [recorders,← spurns.recorders]
      simp [World.adopt]
    hook := by rw [own]; simp [World.adopt,hook]
    installed := by rw [own]
    inFlight := by rw [own]; simp [World.adopt,same]
    sink := by rw [own]; simp [World.adopt,same]
    adopted := ⟨_,config,history,by simp⟩
    outcome := by
      refine hooks.imp before.trans fun hooked => ?_
      refine hooked.between before ⟨rfl,rfl,fun t => ⟨[],by simp,by simp⟩⟩ ?_ ?_ rfl rfl
      · simp [World.adopt,same]
      · simp [World.adopt,same]}

theorem create {platform : Option Nat} {hook logger : Nat} {options : Json}
    (run : env.create s platform hook logger options w = some v) :
    World.Spurns s w v ∨ (w.session s).phase ≠ .disposed ∧ World.Adopted s w v := by
  simp only [Environment.create,quiet.log_eq,quiet.emit_eq,Option.bind_eq_bind,Option.bind_some] at run
  split at run
  · cases run
    exact .inl ((World.Spurns.refl s w).say _ _)
  next live =>
    have handed := World.Spurns.introduce s platform hook logger w
    split at run
    next rejection _ =>
      cases run
      exact .inl ((handed.say _ _).tell (by simp))
    next config accepted =>
      have host : platform.isSome := by simpa using Config.manned_of_check accepted
      exact .inr ⟨live,quiet.adopts (handed.say _ _) (by simpa using host) (by simp) (by simp) run⟩

theorem configure {options : Json} {adopted : Bool} (handed : (w.session s).host.isSome → (w.session s).hook.isSome)
    (run : env.configure s options w = some (adopted,v)) : World.Spurns s w v ∧ adopted = false ∨
      (w.session s).phase ≠ .disposed ∧ World.Adopted s w v ∧ adopted = true := by
  simp only [Environment.configure,quiet.log_eq,quiet.emit_eq,Option.bind_eq_bind,Option.bind_some] at run
  have heard := (World.Spurns.refl s w).say (w.session s).logger "config changed"
  split at run
  · cases run
    exact .inl ⟨heard.say _ _,rfl⟩
  next live =>
    split at run
    · cases run
      exact .inl ⟨(heard.say _ _).tell (by simp),rfl⟩
    next config accepted =>
      simp only [Option.bind_eq_some_iff] at run
      obtain ⟨hooked,install,last,regenerate,run⟩ := run
      cases run
      have host : (w.session s).host.isSome := by simpa using Config.manned_of_check accepted
      have adopts := quiet.adopts heard (by simpa using host) (by simpa using handed host) (by simp) install
      have gains (t : Nat) :=
        (history_caused (fun _ => False) t).regenerate (quiet.keeps (history_caused _ t)) regenerate
      exact .inr ⟨by simpa using live,adopts.works (quiet.works_regenerate (p := (· = s)) rfl regenerate) gains,rfl⟩

end Environment.Quiet

/-- A session is disposed of, and dropped at most, unless nobody holds it. -/
theorem ended_cases {env : Environment MemoryHost} {s : Nat} {command : Command} {reply : Reply}
    {w v : World MemoryHost} (ends : command.Ends s) (run : env.perform command w = some (reply,v)) :
    (w.session s).dropped = true ∧ v = w ∨ ∃ u, env.dispose s w = some u ∧
      (v = u ∨ v = (u.modify s fun session => {session with dropped := true}).release s) := by
  cases command with
  | dispose t =>
    cases ends
    rw [Environment.perform] at run
    rcases onSession_cases run with left | ⟨-,run⟩
    · exact .inl left
    · simp only [Option.bind_eq_bind,Option.bind_eq_some_iff] at run
      obtain ⟨made,dispose,same⟩ := run
      cases same
      exact .inr ⟨v,dispose,.inl rfl⟩
  | drop t =>
    cases ends
    rw [Environment.perform] at run
    rcases onSession_cases run with left | ⟨-,run⟩
    · exact .inl left
    · simp only [Environment.drop,Option.bind_eq_bind,Option.bind_eq_some_iff] at run
      obtain ⟨made,⟨last,dispose,drop⟩,same⟩ := run
      cases same
      cases drop
      exact .inr ⟨last,dispose,.inr rfl⟩
  | _ => exact ends.elim

/-- A session is disposed of, and maybe dropped. -/
structure World.Retired (s : Nat) (a b : World MemoryHost) : Prop where
  spared : ∀ t, t ≠ s → b.session t = a.session t
  own : ∃ config watches dropped, b.session s =
    {a.session s with phase := .disposed,config := config,watches := watches,dropped := dropped}
  hooks : b.hooks = a.hooks
  recorders : b.recorders = a.recorders
  hookings : b.hookings = a.hookings
  still : (a.session s).watches = [] → (b.session s).watches = [] ∧ ∀ h, b.host h = a.host h

namespace World

variable {s : Nat} {w : World MemoryHost}

/-- What a session leaves when it is disposed of, whatever it was told to be its count of watches. -/
def closing (s : Nat) (w : World MemoryHost) : World MemoryHost :=
  ((((w.retire s).unwatch (.session s)).say (w.session s).logger "dispose plugin").tell s
    (.disposed (w.session s).watches.length))

theorem closed_closing (s : Nat) (w : World MemoryHost) : (w.closing s).Closed s := by
  constructor <;> simp [closing,retire]

theorem retired_closing (s : Nat) (w : World MemoryHost) : Retired s w (w.closing s) := by
  have unwatched : Works (· = s) (w.retire s) ((w.retire s).unwatch (.session s)) := .unwatch rfl
  refine ⟨fun t other => ?_,⟨none,[],(w.session s).dropped,?_⟩,?_,?_,?_,fun unwatched =>
    ⟨(closed_closing s w).watches,fun h => ?_⟩⟩
  · simp [closing,retire,Ne.symm other]
  · simp [closing,retire]
  · rw [closing,hooks_tell,hooks_say]
    exact unwatched.hooks
  · rw [closing,recorders_tell,recorders_say]
    exact unwatched.recorders
  · simpa [closing] using unwatched.hookings.trans (hookings_reach w s _ _)
  · have nothing : (w.retire s).watches (.session s) = [] := by simpa [watches,retire] using unwatched
    rw [closing,host_tell,host_say,unwatch,nothing,host_setWatches]
    rfl

theorem Retired.drop {v : World MemoryHost} (retired : Retired s w v) :
    Retired s w ((v.modify s fun session => {session with dropped := true}).release s) := by
  have released : Works (· = s) (v.modify s fun session => {session with dropped := true})
      ((v.modify s fun session => {session with dropped := true}).release s) := .release rfl
  obtain ⟨config,handles,dropped,own⟩ := retired.own
  obtain ⟨rest,left⟩ := session_of_release (v.modify s fun session => {session with dropped := true}) s s
  refine ⟨fun t other => ?_,⟨config,rest,true,by rw [left]; simp [own]⟩,released.hooks.trans retired.hooks,
    released.recorders.trans retired.recorders,released.hookings.trans retired.hookings,fun unwatched => ?_⟩
  · rw [released.spared t other,session_modify,if_neg (Ne.symm other),retired.spared t other]
  · obtain ⟨empty,hosts⟩ := retired.still unwatched
    have nothing : ((v.modify s fun session => {session with dropped := true}).session s).watches = [] := by
      simpa using empty
    have same := World.release_unwatched fun _ => nothing
    exact ⟨by rw [same.1,nothing],fun h => (same.2 h).trans (hosts h)⟩

end World

namespace Environment.Quiet

variable {env : Environment MemoryHost} (quiet : env.Quiet) {s : Nat} {w v : World MemoryHost}

include quiet

theorem dispose_eq (live : (w.session s).phase ≠ .disposed) : env.dispose s w = some (w.closing s) := by
  simp [Environment.dispose,live,quiet.log_eq,quiet.emit_eq,World.closing,World.retire]

theorem dispose (run : env.dispose s w = some v) : World.Retired s w v := by
  by_cases ended : (w.session s).phase = .disposed
  · rw [Environment.dispose,if_pos ended] at run
    cases run
    exact ⟨fun _ _ => rfl,⟨_,_,_,by rw [← ended]⟩,rfl,rfl,rfl,fun unwatched => ⟨unwatched,fun _ => rfl⟩⟩
  · cases (quiet.dispose_eq ended).symm.trans run
    exact World.retired_closing s w

theorem ends {command : Command} {reply : Reply} (run : env.perform command w = some (reply,v))
    (ends : command.Ends s) : v = w ∨ World.Retired s w v := by
  rcases ended_cases ends run with ⟨-,same⟩ | ⟨u,dispose,rfl | rfl⟩
  · exact .inl same
  · exact .inr (quiet.dispose dispose)
  · exact .inr (quiet.dispose dispose).drop

end Environment.Quiet

/-- A session that was handed a host was handed a hook with it. -/
def World.Handed (w : World MemoryHost) : Prop := ∀ s, (w.session s).host.isSome → (w.session s).hook.isSome

theorem handed_lasting (issued : Command → Prop) : Lasting issued fun a b => a.Handed → b.Handed := by
  refine .ofInvariant fun {a b c} _ handed step s => ?_
  have same {w : World MemoryHost} (session : ∃ handles, w.session s = {b.session s with watches := handles}) :
      (w.session s).host.isSome → (w.session s).hook.isSome := by
    obtain ⟨handles,eq⟩ := session
    rw [eq]
    exact handed s
  have modified {t : Nat} {f : Session → Session}
      (keeps : ∀ session, (session.host.isSome → session.hook.isSome) →
        (f session).host.isSome → (f session).hook.isSome) :
      ((b.modify t f).session s).host.isSome → ((b.modify t f).session s).hook.isSome := by
    rw [World.session_modify]
    split
    · exact keeps _ (handed s)
    · exact handed s
  cases step with
  | record | host | wrap | hold | leave => exact handed s
  | generate | lock | unlock | heed | install | drop => exact modified fun _ => id
  | request | start | finish | create | configure | activate => exact modified fun _ => id
  | renewSink t => exact modified (f := fun session => {session with sink := some b.sinks}) fun _ => id
  | introduce => exact modified fun _ _ _ => rfl
  | rewatch t context files => exact same (b.session_of_rewatch _ _ _ s)
  | rewatchRecorder r h files => exact same (b.session_of_rewatch _ _ _ s)
  | unwatchRecorder r => exact same (b.session_of_unwatch _ s)
  | release t => exact same (b.session_of_release t s)
  | dispose t =>
    obtain ⟨handles,eq⟩ := (b.retire t).session_of_unwatch (.session t) s
    rw [eq]
    exact modified (f := fun session => {session with phase := .disposed,config := none}) fun _ => id

/-- What becomes of sessions by a command. -/
inductive Deed (command : Command) (w v : World MemoryHost) : Prop where
  | works (ordinary : command.Ordinary) (works : World.Works (fun s => command.Rouses w s) w v)
  /-- nobody holds the session any more -/
  | left (same : v = w)
  | renews (s : Nat) (renews : command = .renewSink s) (same : v = w.renewSink s)
  | records (records : command.Records) (sessions : ∀ t, v.session t = w.session t) (hooks : v.hooks = w.hooks)
      (hookings : v.hookings = w.hookings)
  | spurns (s : Nat) (adopts : command.Adopts s) (spurns : World.Spurns s w v)
  | adopts (s : Nat) (adopts : command.Adopts s) (live : (w.session s).phase ≠ .disposed)
      (adopted : World.Adopted s w v)
  | retires (s : Nat) (ends : command.Ends s) (retired : World.Retired s w v)

section Deeds

variable {env : Environment MemoryHost} (quiet : env.Quiet) {command : Command} {reply : Reply}
  {w v : World MemoryHost}

/-- Watch sets that belong to no session are no session's matter. -/
theorem deed_recorder {r : Nat} (records : command.Records)
    (changed : v = w.unwatch (.recorder r) ∨ ∃ h files, v = (w.rewatch (.recorder r) h files).2) :
    Deed command w v := by
  let Same (u : World MemoryHost) : Prop :=
    (∀ t, u.session t = w.session t) ∧ u.hooks = w.hooks ∧ u.hookings = w.hookings
  have working {a b : World MemoryHost} (works : World.Works (fun _ => False) a b) (same : Same a) : Same b :=
    ⟨fun t => (works.spared t id).trans (same.1 t),works.hooks.trans same.2.1,works.hookings.trans same.2.2⟩
  have closes {u : World MemoryHost} (handle : Handle) : Same u → Same (u.close handle) := working (.close handle)
  have sets {u : World MemoryHost} (handles : List Handle) (same : Same u) :
      Same (u.setWatches (.recorder r) handles) := same
  have same : Same v := by
    rcases changed with rfl | ⟨h,files,rfl⟩
    · exact World.unwatch_keeps (P := Same) closes sets ⟨fun _ => rfl,rfl,rfl⟩
    · refine World.rewatch_keeps (P := Same) closes sets (fun _ => working ?_) files ⟨fun _ => rfl,rfl,rfl⟩
      exact (World.Works.setHost _ _).trans (.remark rfl)
  exact .records records same.1 same.2.1 same.2.2

include quiet

theorem Environment.Quiet.deed (handed : w.Handed) (run : env.perform command w = some (reply,v)) :
    Deed command w v := by
  have ordinary (plain : command.Ordinary) : Deed command w v :=
    .works plain (quiet.works_perform plain (fun _ => id) run)
  cases command with
  | create s platform hook logger options =>
    rw [Environment.perform] at run
    rcases Environment.onSession_eq_some run with rfl | run
    · exact .left rfl
    · simp only [Option.bind_eq_bind,Option.bind_eq_some_iff] at run
      obtain ⟨made,create,run⟩ := run
      cases run
      rcases quiet.create create with spurns | ⟨live,adopted⟩
      · exact .spurns s rfl spurns
      · exact .adopts s rfl live adopted
  | configure s options =>
    rw [Environment.perform] at run
    rcases Environment.onSession_eq_some run with rfl | run
    · exact .left rfl
    · simp only [Option.bind_eq_bind,Option.bind_eq_some_iff] at run
      obtain ⟨⟨adopted,made⟩,configure,run⟩ := run
      cases run
      rcases quiet.configure (handed s) configure with ⟨spurns,-⟩ | ⟨live,adopted,-⟩
      · exact .spurns s rfl spurns
      · exact .adopts s rfl live adopted
  | dispose s => exact (quiet.ends (s := s) run rfl).elim .left (.retires s rfl)
  | drop s => exact (quiet.ends (s := s) run rfl).elim .left (.retires s rfl)
  | renewSink s =>
    rw [Environment.perform] at run
    rcases Environment.onSession_eq_some run with rfl | run
    · exact .left rfl
    · cases run
      exact .renews s rfl rfl
  | rewatch r h files => cases run; exact deed_recorder trivial (.inr ⟨h,files,rfl⟩)
  | unwatch r => cases run; exact deed_recorder trivial (.inl rfl)
  | dropRecorder r => cases run; exact deed_recorder trivial (.inl rfl)
  | _ => exact ordinary ⟨fun _ => id,by simp,id⟩

end Deeds

/-- No run is left in flight. -/
theorem Deed.inFlight {command : Command} {w v : World MemoryHost} (deed : Deed command w v) (t : Nat) :
    (v.session t).inFlight = (w.session t).inFlight := by
  -- what befalls one session leaves the others as they are
  have either {s : Nat} (spared : ∀ t, t ≠ s → v.session t = w.session t)
      (own : (v.session s).inFlight = (w.session s).inFlight) : (v.session t).inFlight = (w.session t).inFlight := by
    by_cases here : t = s
    · exact here ▸ own
    · rw [spared t here]
  cases deed with
  | works ordinary works => exact works.inFlight t
  | left same => rw [same]
  | renews s renews same =>
    rw [same,World.session_renewSink]
    split <;> rfl
  | records records sessions => rw [sessions]
  | spurns s adopts spurns =>
    obtain ⟨_,_,_,own,-⟩ := spurns.own
    exact either spurns.spared (by rw [own])
  | adopts s adopts live adopted => exact either adopted.spared adopted.inFlight
  | retires s ends retired =>
    obtain ⟨_,_,_,own⟩ := retired.own
    exact either retired.spared (by rw [own])

/-- One session is laid over a resolver by a command, or none is. -/
theorem Deed.hooks {command : Command} {w v : World MemoryHost} (deed : Deed command w v)
    (gains : ∀ t, Gains (· = command) t w v) : World.Unhooked w v ∨ ∃ s, World.Hooked s w v := by
  have plain (spares : ∀ t, ¬command.Adopts t) (hooks : v.hooks = w.hooks) (hookings : v.hookings = w.hookings) :
      World.Unhooked w v := by
    refine ⟨hooks,hookings,fun t => ?_⟩
    obtain ⟨news,history,none,-⟩ := (gains t).unadopted (by rintro _ rfl; exact spares t)
    exact ⟨news,history,none⟩
  cases deed with
  | works ordinary works =>
    exact .inl (plain (fun t adopts => ordinary.unruly t adopts.rules) works.hooks works.hookings)
  | left same => exact .inl (same ▸ ⟨rfl,rfl,fun _ => ⟨[],by simp,by simp⟩⟩)
  | renews s renews same =>
    exact .inl (plain (by rintro t adopts; cases renews; exact adopts) (same ▸ rfl) (same ▸ rfl))
  | records records sessions hooks hookings =>
    exact .inl (plain (fun t adopts => records.not_rules t adopts.rules) hooks hookings)
  | spurns s adopts spurns => exact .inl spurns.unhooked
  | adopts s adopts live adopted => exact adopted.outcome.imp_right fun hooked => ⟨s,hooked⟩
  | retires s ends retired =>
    exact .inl (plain ends.not_adopts retired.hooks retired.hookings)

/-- Collaborators that do nothing issue no other command. -/
theorem silent_gains {tools : Toolchain} {command : Command} {reply : Reply} {w v : World MemoryHost}
    (run : (Environment.silent tools).perform command w = some (reply,v)) (t : Nat) : Gains (· = command) t w v := by
  have done (_ : Entry) (_ : World MemoryHost) : Script.done.Issues (· = command) := trivial
  exact perform_lasting (history_caused _ t) (Environment.scripted_issues done tools 0) rfl run

/-- No command lays more than one session over a resolver, nor leaves a run in flight. -/
theorem silent_hooks {tools : Toolchain} {command : Command} {reply : Reply} {w v : World MemoryHost}
    (handed : w.Handed) (run : (Environment.silent tools).perform command w = some (reply,v)) :
    (∀ t, (v.session t).inFlight = (w.session t).inFlight) ∧ (World.Unhooked w v ∨ ∃ s, World.Hooked s w v) := by
  have deed := (Environment.silent_quiet tools).deed handed run
  exact ⟨deed.inFlight,deed.hooks (silent_gains run)⟩

/-- Only a command to that end disposes of a session. -/
theorem ended_lasting (s : Nat) : Lasting (fun command => ¬command.Ends s) fun a b =>
    (b.session s).phase = .disposed → (a.session s).phase = .disposed where
  refl _ := id
  trans first next := first ∘ next
  step := by
    intro a b c before step
    refine fun ended => before ?_
    have modified {t : Nat} {f : Session → Session}
        (keeps : t = s → ∀ session, (f session).phase = .disposed → session.phase = .disposed) :
        ((b.modify t f).session s).phase = .disposed → (b.session s).phase = .disposed := by
      rw [World.session_modify]
      split
      next here => exact keeps here _
      · exact id
    have watched {w : World MemoryHost} (session : ∃ handles, w.session s = {b.session s with watches := handles}) :
        (w.session s).phase = .disposed → (b.session s).phase = .disposed := by
      obtain ⟨handles,same⟩ := session
      rw [same]
      exact id
    revert ended
    cases step with
    | record | host | wrap | hold | leave => exact id
    | generate | lock | unlock | heed | install | introduce | drop => exact modified fun _ _ => id
    | request | start | finish => exact modified fun _ _ => id
    | renewSink t => exact modified (f := fun session => {session with sink := some b.sinks}) fun _ _ => id
    | activate | create => exact modified (by simp)
    | configure t options config configures live =>
      refine modified fun here session => ?_
      subst here
      simp only
      split
      · simp
      · exact fun ended => absurd ended live
    | rewatch t context files => exact watched (b.session_of_rewatch _ _ _ s)
    | rewatchRecorder r h files => exact watched (b.session_of_rewatch _ _ _ s)
    | unwatchRecorder r => exact watched (b.session_of_unwatch _ s)
    | release t => exact watched (b.session_of_release t s)
    | dispose t disposes =>
      have other : t ≠ s := disposes.elim id id
      simp [World.retire,other]

/-- Nobody is in the middle of anything, and what is over is over. -/
structure World.Orderly (w : World MemoryHost) : Prop where
  handed : w.Handed
  idle : ∀ s, (w.session s).inFlight = false
  closed : ∀ s, (w.session s).phase = .disposed → w.Closed s
  standing : ∀ s, w.Standing s

theorem World.Orderly.dropped {s : Nat} {w : World MemoryHost} (orderly : w.Orderly)
    (left : (w.session s).dropped = true) : w.Closed s := orderly.closed s ((orderly.standing s).dropped left)

section Order

variable {tools : Toolchain} {permitted : Command → Prop} {command : Command} {reply : Reply} {s : Nat}
  {start w v : World MemoryHost}

/-- A session that is told to end has closed its watches when the command is done. -/
theorem closed_of_ends (closed : (w.session s).phase = .disposed → w.Closed s)
    (left : (w.session s).dropped = true → (w.session s).phase = .disposed) (ends : command.Ends s)
    (run : (Environment.silent tools).perform command w = some (reply,v)) : v.Closed s := by
  rcases ended_cases ends run with ⟨dropped,rfl⟩ | ⟨u,dispose,outcome⟩
  · exact closed (left dropped)
  · have disposed : u.Closed s := by
      by_cases ended : (w.session s).phase = .disposed
      · rw [Environment.dispose,if_pos ended] at dispose
        cases dispose
        exact closed ended
      · cases ((Environment.silent_quiet tools).dispose_eq ended).symm.trans dispose
        exact World.closed_closing s w
    rcases outcome with rfl | rfl
    · exact disposed
    · have dropped : (u.modify s fun session => {session with dropped := true}).Closed s :=
        disposed.modify fun _ _ => ⟨rfl,rfl,rfl⟩
      unfold World.release
      split
      · exact dropped.unwatch _
      · exact dropped

theorem World.Blank.orderly (blank : start.Blank) : start.Orderly where
  handed s := by rw [blank.sessions s]; simp
  idle s := by rw [blank.sessions s]
  closed s := by rw [blank.sessions s]; simp
  standing s := blank.standing (blank.bare s)

theorem Passes.orderly (passes : Passes permitted start w) (blank : start.Blank) : w.Orderly := by
  induction passes with
  | refl => exact blank.orderly
  | @perform b c tools command reply before allowed run ih =>
    have done (_ : Entry) (_ : World MemoryHost) (issued : Command → Prop) : Script.done.Issues issued := trivial
    refine ⟨?_,fun s => ?_,fun s ended => ?_,fun s => ?_⟩
    · exact perform_lasting (handed_lasting (· = command)) (Environment.scripted_issues (done · · _) tools 0) rfl run
        ih.handed
    · rw [(silent_hooks ih.handed run).1 s]
      exact ih.idle s
    · by_cases ends : command.Ends s
      · exact closed_of_ends (ih.closed s) (ih.standing s).dropped ends run
      · have before :=
          perform_lasting (ended_lasting s) (Environment.scripted_issues (done · · _) tools 0) ends run ended
        exact perform_lasting (closed_lasting (fun _ => True) s) (Environment.scripted_issues_any _ _ _) trivial run
          (ih.closed s before)
    · exact ((Passes.perform before allowed run).course blank s).standing

end Order

end Phrasebook
