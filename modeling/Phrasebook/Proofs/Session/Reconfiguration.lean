import Phrasebook.Proofs.Session.Freshness

/-! A session is given other options while a resolution goes on. For each name it reads its options once, and
answers and watches by them whatever it has adopted by the time that the regeneration is over. So its answer
is out of date on return unless the options adopted last have the same output and the same locale files:
`resolve_upToDate_iff`. -/
namespace Phrasebook

/-- Commands that give other options to a session. -/
def Command.Configures (s : Nat) : Command → Prop
  | .configure t _ => t = s
  | _ => False

def Milestone.adopted? : Milestone → Option Config
  | .adopted config => some config
  | _ => none

/-- The options that were adopted last. -/
def newestOptions (news : List Milestone) : Option Config := (news.filterMap Milestone.adopted?).getLast?

theorem newestOptions_append (news more : List Milestone) :
    newestOptions (news ++ more) = (newestOptions more).or (newestOptions news) := by
  rw [newestOptions,List.filterMap_append,List.getLast?_append]
  rfl

/-- A session goes on by these milestones, keeps its host and has the options that it adopted last. -/
structure Adopting (s : Nat) (news : List Milestone) (a b : World MemoryHost) : Prop where
  host : (b.session s).host = (a.session s).host
  dropped : (b.session s).dropped = (a.session s).dropped
  config : (b.session s).config = (newestOptions news).or (a.session s).config
  history : b.history s = a.history s ++ news

theorem Adopting.trans {s : Nat} {a b c : World MemoryHost} {news more : List Milestone}
    (first : Adopting s news a b) (next : Adopting s more b c) : Adopting s (news ++ more) a c where
  host := next.host.trans first.host
  dropped := next.dropped.trans first.dropped
  config := by rw [next.config,first.config,newestOptions_append,Option.or_assoc]
  history := by rw [next.history,first.history,List.append_assoc]

/-- Nor has it watched other files. -/
structure Reconfigured (s : Nat) (news : List Milestone) (a b : World MemoryHost) : Prop
    extends Adopting s news a b where
  watches : (b.session s).watches = (a.session s).watches
  unwatched : ∀ files, .watching files ∉ news

namespace Reconfigured

variable {s t : Nat} {a b c w : World MemoryHost}

theorem trans {news more : List Milestone} (first : Reconfigured s news a b) (next : Reconfigured s more b c) :
    Reconfigured s (news ++ more) a c where
  toAdopting := first.toAdopting.trans next.toAdopting
  watches := next.watches.trans first.watches
  unwatched files member := (List.mem_append.mp member).elim (first.unwatched files) (next.unwatched files)

theorem same (session : b.session s = a.session s) (history : b.history s = a.history s) :
    Reconfigured s [] a b :=
  ⟨⟨by rw [session],by rw [session],by rw [session]; rfl,by simp [history]⟩,by rw [session],by simp⟩

theorem modify {f : Session → Session} (host : ∀ session, (f session).host = session.host)
    (dropped : ∀ session, (f session).dropped = session.dropped)
    (watches : ∀ session, (f session).watches = session.watches)
    (config : ∀ session, (f session).config = session.config) : Reconfigured s [] w (w.modify t f) := by
  by_cases eq : t = s
  · refine ⟨⟨?_,?_,?_,?_⟩,?_,by simp⟩ <;> simp [eq,host,dropped,watches,config,newestOptions]
  · exact same (by simp [eq]) rfl

theorem reach {milestone : Milestone} {f : Session → Session} (host : ∀ session, (f session).host = session.host)
    (dropped : ∀ session, (f session).dropped = session.dropped)
    (watches : ∀ session, (f session).watches = session.watches)
    (config : ∀ session, (f session).config = milestone.adopted?.or session.config)
    (other : ∀ files, milestone ≠ .watching files) : ∃ news, Reconfigured s news w (w.reach t milestone f) := by
  by_cases eq : t = s
  · subst eq
    refine ⟨[milestone],⟨by simp [host],by simp [dropped],?_,by simp⟩,by simp [watches],by simpa [eq_comm] using other⟩
    cases adopted : milestone.adopted? <;> simp [config,newestOptions,adopted]
  · exact ⟨[],same (by simp [eq]) (by simp [eq])⟩

/-- Watches of others are no matter. -/
theorem rewatch {owner : Subscriber} (other : owner ≠ .session s) (h : Nat) (files : List Path) :
    Reconfigured s [] w (w.rewatch owner h files).2 := by
  rcases w.rewatch_eq owner h files with eq | ⟨handles,eq⟩ <;> exact same (by simp [eq,other]) (by simp [eq,other])

theorem unwatch {owner : Subscriber} (other : owner ≠ .session s) : Reconfigured s [] w (w.unwatch owner) :=
  same (by simp [other]) (by simp [other])

theorem release (held : (w.session s).dropped = false) (t : Nat) : Reconfigured s [] w (w.release t) := by
  unfold World.release
  split
  next left =>
    have other : Subscriber.session t ≠ .session s := by
      rintro ⟨⟩
      rw [World.gone_of_held held] at left
      cases left
    exact unwatch other
  · exact same rfl rfl

theorem step (held : (b.session s).dropped = false) (step : Step (Command.Configures s) a b c) :
    ∃ news, Reconfigured s news b c := by
  cases step with
  | record entry silent => exact ⟨[],same rfl (by simp [silent s])⟩
  | host | wrap | hold | leave => exact ⟨[],same rfl rfl⟩
  | renewSink t =>
    refine ⟨[],?_⟩
    have counted : Reconfigured s [] b {b with sinks := b.sinks + 1} := same rfl rfl
    exact counted.trans (modify (fun _ => rfl) (fun _ => rfl) (fun _ => rfl) fun _ => rfl)
  | generate | lock | unlock | heed | install =>
    exact ⟨[],modify (fun _ => rfl) (fun _ => rfl) (fun _ => rfl) fun _ => rfl⟩
  | request | start | finish | activate | configure =>
    exact reach (fun _ => rfl) (fun _ => rfl) (fun _ => rfl) (fun _ => rfl) (by simp)
  | introduce t platform hook logger options creates => exact creates.elim
  | create t platform hook logger options config creates => exact creates.elim
  | rewatch t context files watches =>
    obtain ⟨command,configures,watches⟩ := watches
    cases command <;> first | exact configures.elim | exact watches.elim
  | rewatchRecorder => exact ⟨[],rewatch (by simp) _ _⟩
  | unwatchRecorder => exact ⟨[],unwatch (by simp)⟩
  | release t => exact ⟨[],release held t⟩
  | dispose t disposes => exact disposes.elim False.elim False.elim
  | drop t drops => exact drops.elim

end Reconfigured

theorem reconfigured_lasting (s : Nat) : Lasting (Command.Configures s) fun a b =>
    (a.session s).dropped = false → ∃ news, Reconfigured s news a b where
  refl _ _ := ⟨[],.same rfl rfl⟩
  trans first next held := by
    obtain ⟨news,first⟩ := first held
    obtain ⟨more,next⟩ := next (first.dropped.trans held)
    exact ⟨news ++ more,first.trans next⟩
  step first step held := by
    obtain ⟨news,first⟩ := first held
    obtain ⟨more,next⟩ := Reconfigured.step (first.dropped.trans held) step
    exact ⟨news ++ more,first.trans next⟩

/-- What hosts store is the same unless the session has adopted options. -/
def Settled (s : Nat) (a b : World MemoryHost) : Prop :=
  ∃ news, b.history s = a.history s ++ news ∧
    ((newestOptions news).isSome ∨ ∀ h, (b.host h).store = (a.host h).store)

namespace Settled

variable {s : Nat} {a b c w w' : World MemoryHost}

theorem same (history : b.history s = a.history s) (hosts : ∀ h, b.host h = a.host h) : Settled s a b :=
  ⟨[],by simp [history],.inr fun h => by rw [hosts]⟩

theorem trans (first : Settled s a b) (next : Settled s b c) : Settled s a c := by
  obtain ⟨news,start,adopts⟩ := first
  obtain ⟨more,rest,adopts'⟩ := next
  refine ⟨news ++ more,by rw [rest,start,List.append_assoc],?_⟩
  rw [newestOptions_append,Option.isSome_or,Bool.or_eq_true]
  rcases adopts' with later | hosts'
  · exact .inl (.inl later)
  · exact adopts.imp .inr fun hosts h => (hosts' h).trans (hosts h)

theorem record {entry : Entry} (silent : ∀ t, entry.milestone? t = none) : Settled s w (w.record entry) :=
  same (by simp [silent s]) fun _ => rfl

theorem list_of_store {h : Nat} (store : (b.host h).store = (a.host h).store) (path : Path) :
    Host.list path (b.host h) = Host.list path (a.host h) := by
  change (b.host h).list path = (a.host h).list path
  rw [← MemoryHost.list_store,store,MemoryHost.list_store]

theorem list {news : List Milestone} (settled : Settled s a b) (history : b.history s = a.history s ++ news)
    (unadopted : newestOptions news = none) (path : Path) (h : Nat) :
    Host.list path (b.host h) = Host.list path (a.host h) := by
  obtain ⟨other,rest,adopts⟩ := settled
  obtain rfl : other = news := List.append_cancel_left (rest.symm.trans history)
  exact list_of_store (adopts.resolve_left (by simp [unadopted]) h) path

section Collaborators

variable {env : Environment MemoryHost} (heard : ∀ {entry w w'}, env.respond entry w = some w' → Settled s w w')

include heard

theorem log {logger : Option Nat} {line : String} (run : env.log logger line w = some w') : Settled s w w' := by
  cases logger with
  | none => cases run; exact same rfl fun _ => rfl
  | some logger => exact (record fun _ => rfl).trans (heard run)

theorem emit {t : Nat} {event : Event} (run : env.emit t event w = some w') : Settled s w w' := by
  rw [Environment.emit] at run
  split at run
  · exact (record fun _ => rfl).trans (heard run)
  · cases run; exact same rfl fun _ => rfl

/-- Options that are turned down do nothing, and others are adopted before anything is written. -/
theorem configure (issues : env.Issues fun _ => True) {options : Json} {adopted : Bool}
    (run : env.configure s options w = some (adopted,w')) : Settled s w w' := by
  simp only [Environment.configure,Option.bind_eq_bind,Option.bind_eq_some_iff] at run
  obtain ⟨told,log,run⟩ := run
  have first := Settled.log heard log
  split at run
  · simp only [Option.bind_eq_some_iff] at run
    obtain ⟨last,ignored,run⟩ := run
    cases run
    exact first.trans (Settled.log heard ignored)
  · split at run
    all_goals simp only [Option.bind_eq_some_iff] at run
    · obtain ⟨rejected,log,last,emit,run⟩ := run
      cases run
      exact first.trans ((Settled.log heard log).trans (Settled.emit heard emit))
    next config accepted =>
      obtain ⟨announced,emit,hooked,install,last,regenerate,run⟩ := run
      cases run
      have caused := history_caused (fun _ => True) s
      have later := caused.trans (caused.emit (issues caused) emit)
        (caused.trans (caused.install (issues caused) ⟨.configure s options,trivial,rfl⟩ install)
          (caused.regenerate (issues caused) regenerate))
      obtain ⟨news,history,-⟩ := later
      refine first.trans ⟨.adopted config :: news,by rw [history]; simp [World.adopt],.inl ?_⟩
      rw [← List.singleton_append,newestOptions_append,Option.isSome_or]
      exact Bool.or_true _

theorem follow (issues : env.Issues fun _ => True) {script : Script} (configures : script.Issues (Command.Configures s))
    (run : env.follow script w = some w') : Settled s w w' := by
  induction script generalizing w with
  | done => cases run; exact same rfl fun _ => rfl
  | issue command next ih =>
    simp only [Environment.follow,Option.bind_eq_bind,Option.bind_eq_some_iff] at run
    obtain ⟨⟨reply,performed⟩,perform,run⟩ := run
    have carried : Settled s w performed := by
      cases command with
      | configure t options =>
        obtain rfl := configures.1
        rw [Environment.perform] at perform
        rcases Environment.onSession_eq_some perform with rfl | perform
        · exact same rfl fun _ => rfl
        · simp only [Option.bind_eq_bind,Option.bind_eq_some_iff] at perform
          obtain ⟨⟨adopted,configured⟩,configure,perform⟩ := perform
          cases perform
          exact Settled.configure heard issues configure
      | _ => exact configures.1.elim
    exact carried.trans ((record fun _ => rfl).trans (ih reply (configures.2 reply) run))

end Collaborators

theorem scripted {tools : Toolchain} {behaviour : Behaviour} {depth : Nat}
    (configures : ∀ entry w, (behaviour entry w).Issues (Command.Configures s)) {entry : Entry}
    (run : (Environment.scripted tools behaviour depth).respond entry w = some w') : Settled s w w' := by
  induction depth generalizing entry w w' with
  | zero =>
    simp only [Environment.scripted] at run
    split at run
    · cases run; exact same rfl fun _ => rfl
    · contradiction
  | succ depth ih => exact follow ih (Environment.scripted_issues_any _ _ _) (configures entry w) run

end Settled

/-- The answer is the output of the options in force, and the files of their directory are watched. -/
def World.UpToDate (s : Nat) (w : World MemoryHost) (answer : Resolution) : Prop :=
  ∃ context, (w.session s).context? = some context ∧ answer = ⟨context.config.outputPath,false⟩ ∧
    Host.list context.config.localesDirectory (w.host context.host) =
      .ok ((w.session s).watches.map (·.path))

/-- A session with these options when it was asked has answered a name itself. -/
structure Served (s : Nat) (context : Context) (files : List Path) (news : List Milestone)
    (w w' : World MemoryHost) : Prop where
  ready : (w.session s).context? = some context
  history : w'.history s = w.history s ++ news
  renewed : .watching files ∈ news
  watches : (w'.session s).watches.map (·.path) = files
  host : (w'.session s).host = some context.host
  config : (w'.session s).config = (newestOptions news).or (some context.config)
  listed : newestOptions news = none →
    Host.list context.config.localesDirectory (w'.host context.host) = .ok files

theorem Session.context?_eq {session : Session} {h : Nat} {config : Config} (host : session.host = some h)
    (adopted : session.config = some config) : session.context? = some ⟨h,session.logger,config⟩ := by
  simp [context?,host,adopted]

/-- Options adopted in between must have the same output and the same locale files. -/
theorem Served.upToDate_iff {s : Nat} {context : Context} {files : List Path} {news : List Milestone}
    {w w' : World MemoryHost} (served : Served s context files news w w') :
    w'.UpToDate s ⟨context.config.outputPath,false⟩ ↔ ∀ config, newestOptions news = some config →
      config.outputPath = context.config.outputPath ∧
      Host.list config.localesDirectory (w'.host context.host) = .ok files := by
  have inForce {config : Config} (adopted : (w'.session s).config = some config) :
      w'.UpToDate s ⟨context.config.outputPath,false⟩ ↔ config.outputPath = context.config.outputPath ∧
        Host.list config.localesDirectory (w'.host context.host) = .ok files := by
    rw [World.UpToDate,Session.context?_eq served.host adopted,served.watches]
    constructor
    · rintro ⟨_,⟨⟩,answer,listed⟩
      exact ⟨(congrArg Resolution.path answer).symm,listed⟩
    · rintro ⟨output,listed⟩
      exact ⟨_,rfl,by rw [output],listed⟩
  have config := served.config
  cases newest : newestOptions news with
  | none =>
    rw [newest] at config
    exact iff_of_true ((inForce config).mpr ⟨rfl,served.listed newest⟩) (by simp)
  | some later =>
    rw [newest] at config
    simpa using inForce config

/-- What happens to it after that, it goes on to serve. -/
theorem Served.later {s : Nat} {context : Context} {files : List Path} {news more : List Milestone}
    {w v u : World MemoryHost} (served : Served s context files news w v) (later : Reconfigured s more v u)
    (settled : Settled s v u) : Served s context files (news ++ more) w u where
  ready := served.ready
  history := by rw [later.history,served.history,List.append_assoc]
  renewed := List.mem_append_left more served.renewed
  watches := by rw [later.watches,served.watches]
  host := later.host.trans served.host
  config := by rw [later.config,served.config,newestOptions_append,Option.or_assoc]
  listed unadopted := by
    rw [newestOptions_append,Option.or_eq_none_iff] at unadopted
    rw [settled.list later.history unadopted.1,served.listed unadopted.2]

theorem Adopting.rewatch {s h : Nat} {files : List Path} {refreshed : Refreshed} {w v : World MemoryHost}
    (renewed : w.rewatch (.session s) h files = (.ok refreshed,v)) :
    Adopting s [.watching [],.watching files] w v ∧ (v.session s).watches.map (·.path) = files := by
  rw [World.rewatch] at renewed
  split at renewed
  next handles u opens =>
    cases renewed
    have session := World.session_openAll (w.unwatch (.session s)) s (.session s) h files []
    have history := World.history_openAll (w.unwatch (.session s)) s (.session s) h files []
    have spec := World.openAll_spec (.session s) h files [] (w.unwatch (.session s))
    rw [opens] at session history spec
    have paths : handles.map (·.path) = files := spec.1
    have unadopted : newestOptions [.watching [],.watching files] = none := rfl
    refine ⟨⟨?_,?_,?_,?_⟩,?_⟩ <;> simp [session,history,paths,unadopted]
  · cases renewed

section Interception

variable {env : Environment MemoryHost} {s : Nat}
  (heard : ∀ {entry w w'}, env.respond entry w = some w' →
    (w.session s).dropped = false → ∃ news, Reconfigured s news w w')
  (settles : ∀ {entry w w'}, env.respond entry w = some w' → Settled s w w')
  {w w' : World MemoryHost} {context : Context}

include heard settles

/-- By the end of a renewal, the files that were there at its start are watched. -/
theorem refreshWatches_served {start : World MemoryHost} {before : List Milestone}
    (first : Reconfigured s before start w) (held : (start.session s).dropped = false)
    (ready : (start.session s).context? = some context)
    (run : env.refreshWatches s context w = some (.ok (),w')) :
    ∃ files news, Served s context files news start w' ∧ (w'.session s).dropped = false := by
  have lasting := reconfigured_lasting s
  rw [Environment.refreshWatches] at run
  split at run
  · cases run
  next files listed =>
    simp only [Option.bind_eq_bind,Option.bind_eq_some_iff] at run
    obtain ⟨closing,close,opening,log,run⟩ := run
    have unopened := (Settled.log settles close).trans (Settled.log settles log)
    obtain ⟨quiet,opened⟩ := lasting.trans (lasting.log heard close) (lasting.log heard log)
      (first.dropped.trans held)
    have begun := first.trans opened
    split at run
    · cases run
    next refreshed renewed rewatch =>
      simp only [Option.bind_eq_some_iff] at run
      obtain ⟨told,tell,last,emit,run⟩ := run
      cases run
      have store := opening.store_rewatch context.host context.host (.session s) files
      rw [rewatch] at store
      obtain ⟨watching,paths⟩ := Adopting.rewatch rewatch
      have settled := (Settled.log settles tell).trans (Settled.emit settles emit)
      obtain ⟨more,later⟩ := lasting.trans (lasting.log heard tell) (lasting.emit heard emit)
        ((begun.toAdopting.trans watching).dropped.trans held)
      have whole := (begun.toAdopting.trans watching).trans later.toAdopting
      refine ⟨files,_,⟨ready,whole.history,by simp,by rw [later.watches,paths],?_,?_,fun unadopted => ?_⟩,
        whole.dropped.trans held⟩
      · rw [whole.host]
        exact Session.host_of_context? ready
      · rw [whole.config,Session.config_of_context? ready]
      · simp only [newestOptions_append,Option.or_eq_none_iff] at unadopted
        obtain ⟨unadopted',-,none,-⟩ := unadopted
        rw [settled.list later.history unadopted',← listed,← unopened.list opened.history none]
        exact Settled.list_of_store store _

/-- A name is left as it was found, or the session answers it by the options that it read first. -/
theorem intercept_served {name : String} {file : Path} {resolution : Option Resolution} {answers : Answers}
    (held : (w.session s).dropped = false)
    (run : env.intercept s file [(name,resolution)] w = some (.ok answers,w')) : (w'.session s).dropped = false ∧
      ((∃ news, w'.history s = w.history s ++ news ∧ (∀ files, .watching files ∉ news) ∧ answers = [resolution]) ∨
      ∃ context files news, Served s context files news w w' ∧
        answers = [some ⟨context.config.outputPath,false⟩]) := by
  have lasting := reconfigured_lasting s
  have left {v : World MemoryHost} {news : List Milestone} (passed : Reconfigured s news w v)
      (run : Environment.answer resolution (env.intercept s file [] v) = some (.ok answers,w')) :
      (w'.session s).dropped = false ∧
        ∃ news, w'.history s = w.history s ++ news ∧ (∀ files, .watching files ∉ news) ∧ answers = [resolution] := by
    cases run
    exact ⟨passed.dropped.trans held,news,passed.history,passed.unwatched,rfl⟩
  rw [Environment.intercept] at run
  split at run
  · cases run
    exact ⟨held,.inl ⟨[],by simp,by simp,rfl⟩⟩
  next context ready =>
    split at run
    · exact (left (.same rfl rfl) run).imp_right .inl
    · simp only [Option.bind_eq_bind,Option.bind_eq_some_iff] at run
      obtain ⟨logged,log,run⟩ := run
      obtain ⟨news,first⟩ := lasting.log heard log held
      split at run
      · have noted : Reconfigured s [] logged (logged.record
            (.noted (.directoryMissing name context.config.localesDirectory))) := .same rfl (by simp [Entry.milestone?])
        exact (left (first.trans noted) run).imp_right .inl
      · simp only [Option.bind_eq_some_iff] at run
        obtain ⟨made,regenerate,⟨result,watched⟩,refresh,run⟩ := run
        obtain ⟨more,runs⟩ := lasting.regenerate heard regenerate (first.dropped.trans held)
        cases result with
        | error fault => cases run
        | ok =>
          simp only [Option.bind_eq_some_iff] at run
          obtain ⟨told,emit,run⟩ := run
          obtain ⟨files,all,served,kept⟩ :=
            refreshWatches_served heard settles (first.trans runs) held ready refresh
          obtain ⟨last,later⟩ := lasting.emit heard emit kept
          cases run
          exact ⟨later.dropped.trans kept,.inr ⟨context,files,all ++ last,
            served.later later (Settled.emit settles emit),rfl⟩⟩

end Interception

theorem Script.Issues.mono {issued allowed : Command → Prop} (sub : ∀ command, issued command → allowed command)
    {script : Script} (issues : script.Issues issued) : script.Issues allowed := by
  induction script with
  | done => trivial
  | issue command next ih => exact ⟨sub command issues.1,fun reply => ih reply (issues.2 reply)⟩

/-- Unless it is dropped, somebody holds a session as before. -/
theorem held_lasting (s : Nat) : Lasting (fun command => ∀ t, command = .drop t → t ≠ s) fun a b =>
    (b.session s).dropped = (a.session s).dropped where
  refl _ := rfl
  trans first next := next.trans first
  step := by
    intro a b c before step
    rw [← before]
    have modified {t : Nat} {f : Session → Session} (keeps : t = s → ∀ session, (f session).dropped = session.dropped) :
        ((b.modify t f).session s).dropped = (b.session s).dropped := by
      rw [World.session_modify]
      split
      next here => exact keeps here _
      · rfl
    have unwatched (w : World MemoryHost) (owner : Subscriber) :
        ((w.unwatch owner).session s).dropped = (w.session s).dropped := by
      obtain ⟨handles,same⟩ := w.session_of_unwatch owner s
      rw [same]
    cases step with
    | record | host | wrap | hold | leave => rfl
    | renewSink t => exact modified fun _ _ => rfl
    | generate | lock | unlock | heed | install | introduce => exact modified fun _ _ => rfl
    | request | start | finish | activate | create | configure => exact modified fun _ _ => rfl
    | rewatch t context files =>
      obtain ⟨handles,same⟩ := b.session_of_rewatch context.host (.session t) files s
      rw [same]
    | rewatchRecorder r h files =>
      obtain ⟨handles,same⟩ := b.session_of_rewatch h (.recorder r) files s
      rw [same]
    | unwatchRecorder => exact unwatched b _
    | release t =>
      obtain ⟨handles,same⟩ := b.session_of_release t s
      rw [same]
    | dispose t => exact (unwatched _ _).trans (modified fun _ _ => rfl)
    | drop t drops => exact modified fun here => absurd here (drops t rfl)

/-- A session is asked for one name, and meanwhile it is given other options any number of times. It may
leave what was found below it as it is. If not, it answers by the options that it read once those below had
had their say; and the answer is up to date on return if and only if the options adopted since then, if any,
have the same output, and their directory the files that were watched. -/
theorem resolve_upToDate_iff {tools : Toolchain} {behaviour : Behaviour} {depth s hook : Nat} {name : String}
    {file : Path} {reused : Option (List String)} {baseline : Resolver} {inner : List Layer} {answers : Answers}
    {w w' : World MemoryHost} (laid : w.hooks.get hook = ⟨some baseline,.session s :: inner⟩)
    (held : (w.session s).dropped = false)
    (configures : ∀ entry w, (behaviour entry w).Issues (Command.Configures s))
    (run : (Environment.scripted tools behaviour depth).resolve hook ⟨[name],file,reused⟩ w =
      some (.ok answers,w')) :
    ∃ found u, (Environment.scripted tools behaviour depth).ask baseline ⟨[name],file,reused⟩ inner w =
        some (.ok found,u) ∧
      ((∃ news, w'.history s = u.history s ++ news ∧ (∀ files, .watching files ∉ news) ∧
          answers = [found[0]?.join]) ∨
        ∃ context files news, Served s context files news u w' ∧
          answers = [some ⟨context.config.outputPath,false⟩] ∧
          (w'.UpToDate s ⟨context.config.outputPath,false⟩ ↔ ∀ config, newestOptions news = some config →
            config.outputPath = context.config.outputPath ∧
            Host.list config.localesDirectory (w'.host context.host) = .ok files)) := by
  let env := Environment.scripted tools behaviour depth
  have heard {entry : Entry} {a b : World MemoryHost} (run : env.respond entry a = some b) :=
    Environment.scripted_issues configures tools depth (reconfigured_lasting s) run
  have holds {entry : Entry} {a b : World MemoryHost} (run : env.respond entry a = some b) :=
    Environment.scripted_issues (fun entry w => (configures entry w).mono
      (by rintro command configures t rfl; exact configures.elim)) tools depth (held_lasting s) run
  simp only [Environment.resolve,laid,Environment.ask,Option.bind_eq_bind,Option.bind_eq_some_iff] at run
  obtain ⟨⟨result,u⟩,asked,run⟩ := run
  have kept := ((held_lasting s).ask holds (fun t => ⟨.refresh t,by simp,rfl⟩) asked).trans held
  cases result with
  | error fault => cases run
  | ok found =>
    simp only [Option.bind_eq_some_iff] at run
    obtain ⟨⟨result,last⟩,intercept,run⟩ := run
    cases run
    have one : [name].zip (found.fit 1) = [(name,found[0]?.join)] := by
      cases found <;> simp [Answers.fit]
    rw [List.length_singleton,one] at intercept
    obtain ⟨still,outcome⟩ :=
      intercept_served heard (Settled.scripted configures) (w := u.hold s) kept intercept
    have released : (last.leave s).release s = last.leave s := World.release_of_there (World.gone_of_held still)
    rw [released]
    refine ⟨found,u,asked,outcome.imp_right ?_⟩
    rintro ⟨context,files,news,served,answer⟩
    have left : Served s context files news u (last.leave s) := {served with}
    exact ⟨context,files,news,left,answer,left.upToDate_iff⟩

section Moved

/-- The session is given other options when the generator is called for the first time. -/
def Behaviour.reconfiguring (options : Json) : Behaviour := fun entry _ =>
  match entry with
  | .generating _ 1 => .ofList [.configure 0 options]
  | _ => .done

def Environment.reconfiguring (options : Json) : Environment MemoryHost :=
  .scripted .copying (.reconfiguring options) 1

theorem reconfiguring_issues (options : Json) (entry : Entry) (w : World MemoryHost) :
    (Behaviour.reconfiguring options entry w).Issues fun command => command = .configure 0 options := by
  unfold Behaviour.reconfiguring
  split
  · exact ⟨rfl,fun _ => trivial⟩
  · trivial

/-- The session has adopted the options in the middle of a run, and has them answered by another run. -/
def World.reconfigured (config : Config) (w : World MemoryHost) : World MemoryHost :=
  let w := (w.record (.logged 0 "config changed")).adopt 0 config .active
  ((w.record (.emitted 0 (.reconfigured config.moduleName))).request 0).record (.nested (.flag true))

theorem reconfiguring_respond {options : Json} {config : Config} {w : World MemoryHost}
    (session : w.session 0 = {World.manned.session 0 with inFlight := true,runs := 1,generations := 1})
    (accepted : Config.check options (some (w.host 0)) = .ok config) :
    (Environment.reconfiguring options).respond (.generating 0 1) w = some (w.reconfigured config) := by
  have fields : World.manned.session 0 = {
      phase := .active,host := some 0,logger := some 0,hook := some 0,sink := some 0,
      config := some plainContext.config,installed := true} := rfl
  simp [Environment.reconfiguring,Environment.scripted,Behaviour.reconfiguring,Script.ofList,Environment.follow,
    Environment.perform,Environment.onSession,session,fields,Environment.configure,Environment.log,
    Environment.announce,accepted,Environment.emit,Environment.install,World.adopt,Session.context?,
    Environment.regenerate_of_inFlight,World.reconfigured]

/-- What the run does that writes by the options adopted during the one before, and all that comes after. -/
def Environment.concludes (env : Environment MemoryHost) (p : World MemoryHost → Bool) (u : World MemoryHost) : Bool :=
  (env.runOnce 0 (u.heed 0)).any fun v => (v.session 0).requested = false ∧ env.replies p (v.unlock 0)

theorem reconfiguring_resolves (options : Json) {p : World MemoryHost → Bool}
    (ran : ∃ u, (u.session 0).requested = true ∧
      (Environment.reconfiguring options).runOnce 0 (((World.manned.asking.request 0).lock 0).heed 0) = some u ∧
      (Environment.reconfiguring options).concludes p u = true) :
    ∃ w', (Environment.reconfiguring options).resolve 0 mainQuery .manned =
      some (.ok [some ⟨plainContext.config.outputPath,false⟩],w') ∧ p w' = true := by
  obtain ⟨u,again,first,concludes⟩ := ran
  obtain ⟨v,second,facts⟩ := (Option.any_eq_true _ _).mp concludes
  obtain ⟨settled,replies⟩ := of_decide_eq_true facts
  have made := Environment.regenerate_twice rfl first again second settled
  exact Environment.answers_of_replies rfl rfl rfl manned_attends.present made replies

theorem reconfiguring_loads (options : Json) :
    (Environment.reconfiguring options).toolchain.load plainContext.config.localesDirectory (World.manned.host 0) =
      .ok [⟨"en",.message "a: b" "" .empty⟩] := by
  change Toolchain.copying.load plainContext.config.localesDirectory (World.manned.host 0) = _
  decide +kernel

/-- The output is to be elsewhere. -/
def movedOptions : Json := .object
  [("moduleName",.string "i18n"),("localesDirectory",.string "/p/locales"),("outputPath",.string "/p/src/texts.d.ts")]

def movedConfig : Config := {plainContext.config with outputPath := ⟨"/p/src/texts.d.ts"⟩}

/-- The session answers with the output of the options that it has just given up. -/
theorem moved_answer_stale : Reachable World.manned ∧ (World.manned.session 0).phase = .active ∧
    Config.check movedOptions (some (World.manned.host 0)) = .ok movedConfig ∧
    (∀ entry w, (Behaviour.reconfiguring movedOptions entry w).Issues fun command =>
      command = .configure 0 movedOptions) ∧
    ∃ w', (Environment.reconfiguring movedOptions).resolve 0 mainQuery .manned =
        some (.ok [some ⟨⟨"/p/src/i18n.d.ts"⟩,false⟩],w') ∧
      (w'.session 0).config = some movedConfig ∧ movedConfig.outputPath = ⟨"/p/src/texts.d.ts"⟩ := by
  have accepted : Config.check movedOptions (some (World.manned.host 0)) = .ok movedConfig := by decide +kernel
  refine ⟨manned_reachable,rfl,accepted,reconfiguring_issues _,?_⟩
  obtain ⟨w',run,shown⟩ := reconfiguring_resolves movedOptions
    (p := fun w' => (w'.session 0).config = some movedConfig) (by
      refine ⟨_,?_,Environment.runOnce_of_written rfl rfl (reconfiguring_loads _)
        (reconfiguring_respond rfl accepted) rfl rfl rfl rfl,?_⟩
      · rfl
      · decide +kernel)
  exact ⟨w',run,of_decide_eq_true shown,rfl⟩

/-- The other languages are to be loaded on demand. -/
def lazyOptions : Json := .object
  [("moduleName",.string "i18n"),("localesDirectory",.string "/p/locales"),("outputPath",.string "/p/src/i18n.d.ts"),
    ("lazy",.bool true),("defaultLocale",.string "en")]

def lazyConfig : Config := {plainContext.config with mode := .lazy "en"}

/-- Options that change nothing but the mode do no harm. -/
theorem lazy_answer_upToDate : ∃ w', (Environment.reconfiguring lazyOptions).resolve 0 mainQuery .manned =
      some (.ok [some ⟨⟨"/p/src/i18n.d.ts"⟩,false⟩],w') ∧
    (w'.session 0).config = some lazyConfig ∧ w'.UpToDate 0 ⟨⟨"/p/src/i18n.d.ts"⟩,false⟩ := by
  have accepted : Config.check lazyOptions (some (World.manned.host 0)) = .ok lazyConfig := by decide +kernel
  obtain ⟨w',run,shown⟩ := reconfiguring_resolves lazyOptions
    (p := fun w' => (w'.session 0).config = some lazyConfig ∧
      Host.list plainContext.config.localesDirectory (w'.host 0) = .ok ((w'.session 0).watches.map (·.path))) (by
      refine ⟨_,?_,Environment.runOnce_of_written rfl rfl (reconfiguring_loads _)
        (reconfiguring_respond rfl accepted) rfl rfl rfl rfl,?_⟩
      · rfl
      · decide +kernel)
  obtain ⟨config,listed⟩ := of_decide_eq_true shown
  refine ⟨w',run,config,?_⟩
  have issues (entry : Entry) (w : World MemoryHost) :
      (Behaviour.reconfiguring lazyOptions entry w).Issues (Command.Configures 0) :=
    (reconfiguring_issues lazyOptions entry w).mono (by rintro command rfl; rfl)
  obtain ⟨found,u,asked,left | ⟨context,files,news,served,-,current⟩⟩ :=
    resolve_upToDate_iff (s := 0) rfl manned_held issues run
  · cases asked
    obtain ⟨_,_,_,none⟩ := left
    cases none
  · cases asked
    obtain rfl : plainContext = context := Option.some.inj served.ready
    refine current.mpr fun later newest => ?_
    have adopted := served.config
    rw [config,newest] at adopted
    cases adopted
    exact ⟨rfl,by rw [← served.watches]; exact listed⟩

end Moved
end Phrasebook
