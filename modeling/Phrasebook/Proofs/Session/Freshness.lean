import Phrasebook.Proofs.Session.Accounting
import Phrasebook.Proofs.Session.Attention
import Phrasebook.Proofs.Session.Disposal

/-! A resolution that reports a written output leaves none that is out of date, though locale files are edited
while it goes on: `resolve_current`. It counts on the edited files being watched. Watches are renewed after
the run, so on a first resolution the run itself goes unwatched, and what is edited then is missed:
`unwatched_stale`. -/
namespace Phrasebook

/-- Open watches are those of the watch set. -/
theorem World.Accounted.watched_iff {s h : Nat} {path : Path} {w : World MemoryHost} (accounted : w.Accounted) :
    w.Watched s h path ↔
      ∃ handle ∈ w.watches (.session s), handle.host = h ∧ handle.path.same path = true := by
  constructor
  · rintro ⟨watch,member,same,subscribed⟩
    exact ⟨watch.handle h,subscribed ▸ Accounts.mem accounted member,rfl,same⟩
  · rintro ⟨handle,member,here,same⟩
    have listed : handle ∈ w.openOn h (.session s) := by
      rw [accounted.owned]
      exact List.mem_filter.mpr ⟨member,decide_eq_true here⟩
    obtain ⟨watch,filtered,rfl⟩ := List.mem_map.mp listed
    obtain ⟨present,subscribed⟩ := List.mem_filter.mp filtered
    exact ⟨watch,present,same,of_decide_eq_true subscribed⟩

namespace Site

variable {site : Site} {a b c w w' : World MemoryHost}

/-- No run of the session is in flight. -/
structure Rests (site : Site) (w : World MemoryHost) : Prop extends site.Scene w where
  idle : (w.session site.session).inFlight = false

/-- No edit in between has left the output out of date. -/
structure Keeps (site : Site) (a b : World MemoryHost) : Prop where
  rests : site.Rests b
  current : site.Current a → site.Current b

theorem Keeps.trans (first : site.Keeps a b) (next : site.Keeps b c) : site.Keeps a c :=
  ⟨next.rests,next.current ∘ first.current⟩

theorem Rests.keeps (rests : site.Rests w) (tends : site.Tends w w') : site.Keeps w w' :=
  ⟨⟨rests.frame tends.toFrame,tends.inFlight.trans rests.idle⟩,tends.idle rests.idle⟩

/-- As files only come, those listed at the start are among them. -/
theorem Scene.covers (scene : site.Scene w) {files : List Path}
    (listed : Host.list site.context.config.localesDirectory (w.host site.context.host) = .ok files)
    {path : Path} (known : site.start.Listed site.context path) : ∃ file ∈ files, file.same path = true := by
  obtain ⟨before,were,file,member,same⟩ := known
  obtain ⟨now,are,more⟩ := scene.grows.list were
  obtain rfl : now = files := Except.ok.inj (are.symm.trans listed)
  exact ⟨file,more file member,same⟩

/-- Nothing that counts for the output depends on watches. -/
theorem Rests.rewatched (rests : site.Rests w)
    (sessions : ∀ t, ∃ handles, w'.session t = {w.session t with watches := handles})
    (store : (w'.host site.context.host).store = (w.host site.context.host).store) (accounted : w'.Accounted)
    (watching : ∀ path, site.start.Listed site.context path →
      w.Watched site.session site.context.host path → w'.Watched site.session site.context.host path) :
    site.Keeps w w' := by
  obtain ⟨handles,own⟩ := sessions site.session
  refine ⟨{
    outside := rests.outside
    ready := by rw [own]; exact rests.ready
    held := by rw [own]; exact rests.held
    apart := fun t other context ready => ?_
    grows := rests.grows.trans (.of_store store)
    watching := fun path listed watched => watching path listed (rests.watching path listed watched)
    accounted := accounted
    idle := by rw [own]; exact rests.idle},fun current => ?_⟩
  · obtain ⟨handles,theirs⟩ := sessions t
    rw [theirs] at ready
    exact rests.apart t other context ready
  · refine Unedited.current (a := w) ⟨by rw [own],Toolchain.rendering_of_store store,?_⟩ current
    rw [← MemoryHost.file?_store,store,MemoryHost.file?_store]

/-- The session watches its locale files anew, or another session watches its own. -/
theorem Rests.rewatch (rests : site.Rests w) {t h : Nat} {files : List Path} {refreshed : Refreshed}
    (covers : t = site.session → h = site.context.host ∧
      ∀ path, site.start.Listed site.context path → ∃ file ∈ files, file.same path = true)
    (opens : w.rewatch (.session t) h files = (.ok refreshed,w')) : site.Keeps w w' := by
  have sessions := w.session_of_rewatch h (.session t) files
  have store := w.store_rewatch site.context.host h (.session t) files
  have accounted := rests.accounted.rewatch (.session t) h files
  obtain ⟨opened,spec⟩ := rests.accounted.rewatched (.session t) h files
  rw [opens] at sessions store accounted spec
  refine rests.rewatched sessions store accounted fun path listed watched => ?_
  -- its own set lists all its files anew, and by the accounts no other set has a watch of its
  by_cases own : t = site.session
  · obtain ⟨here,all⟩ := covers own
    obtain ⟨file,member,same⟩ := all path listed
    obtain ⟨-,-,paths,hosts,-⟩ := spec.success _ rfl
    rw [← paths] at member
    obtain ⟨handle,held,rfl⟩ := List.mem_map.mp member
    exact accounted.watched_iff.mpr ⟨handle,own ▸ held,(hosts handle held).trans here,same⟩
  · have sets := spec.others (.session site.session) fun same => own (Subscriber.session.inj same).symm
    rw [accounted.watched_iff,sets]
    exact rests.accounted.watched_iff.mp watched

theorem Rests.release (rests : site.Rests w) (t : Nat) : site.Keeps w (w.release t) := by
  unfold World.release
  split
  next gone =>
    have accounted := rests.accounted.unwatch (.session t)
    refine rests.rewatched (w.session_of_unwatch (.session t)) (w.store_unwatch _ _) accounted fun path _ watched => ?_
    have other : Subscriber.session t ≠ .session site.session := by
      intro same
      cases same
      rw [World.gone_of_held rests.held] at gone
      cases gone
    rw [accounted.watched_iff,World.watches_unwatch,if_neg other]
    exact rests.accounted.watched_iff.mp watched
  · exact ⟨rests,id⟩

theorem Rests.hold (rests : site.Rests w) (t : Nat) : site.Rests (w.hold t) := ⟨rests.toScene.hold t,rests.idle⟩

/-- Whoever was at work is done. -/
theorem Rests.leave (rests : site.Rests w) (t : Nat) : site.Keeps w ((w.leave t).release t) := by
  have accounted : (w.leave t).Accounted :=
    rests.accounted.frame (fun _ => ⟨rfl,rfl,rfl⟩) fun owner => by cases owner <;> rfl
  have left : site.Rests (w.leave t) := ⟨{rests.toScene with accounted := accounted},rests.idle⟩
  exact ⟨(left.release t).rests,(left.release t).current⟩

section Operations

variable {env : Environment MemoryHost} (heard : ∀ {entry w w'}, env.respond entry w = some w' → site.Heeds w w')
  {t : Nat}

include heard

/-- Edits between listing and watching are noticed by the watches that are about to be closed. -/
theorem refreshWatches_keeps {context : Context} (rests : site.Rests w)
    (own : t = site.session → context = site.context)
    (run : env.refreshWatches t context w = some (.ok (),w')) : site.Keeps w w' := by
  rw [Environment.refreshWatches] at run
  split at run
  · cases run
  next files listed =>
    simp only [Option.bind_eq_bind,Option.bind_eq_some_iff] at run
    obtain ⟨closing,close,opening,open_,run⟩ := run
    have first := rests.keeps (log_heeds heard close rests.toScene)
    have before := first.trans (first.rests.keeps (log_heeds heard open_ first.rests.toScene))
    split at run
    · cases run
    next refreshed renewed rewatch =>
      simp only [Option.bind_eq_some_iff] at run
      obtain ⟨logged,log,emitted,emit,run⟩ := run
      cases run
      have watched := before.trans (before.rests.rewatch (fun same => by
        obtain rfl := own same
        exact ⟨rfl,fun _ => rests.covers listed⟩) rewatch)
      have told := watched.trans (watched.rests.keeps (log_heeds heard log watched.rests.toScene))
      exact told.trans (told.rests.keeps (emit_heeds heard emit told.rests.toScene))

variable (tools : env.toolchain = site.tools)

include tools

theorem regenerate_keeps (rests : site.Rests w) (run : env.regenerate t w = some w') :
    site.Keeps w w' ∧ (t = site.session → site.Current w') := by
  by_cases own : t = site.session
  · subst own
    obtain ⟨frame,idle,current⟩ := regenerate_current heard tools rests.toScene rests.idle run
    exact ⟨⟨⟨rests.frame frame,idle⟩,fun _ => current⟩,fun _ => current⟩
  · exact ⟨rests.keeps (regenerate_heeds heard own run rests.toScene),fun same => absurd same own⟩

variable (present : (site.start.host site.context.host).directoryExists site.context.config.localesDirectory = true)

include present

/-- Whoever asks for the session's module finds its output up to date afterwards, and whoever asks for that of
another session does no harm. -/
theorem intercept_keeps {file : Path} {found : List (String × Option Resolution)} {answers : Answers}
    (rests : site.Rests w) (run : env.intercept t file found w = some (.ok answers,w')) :
    site.Keeps w w' ∧
      (t = site.session → site.context.config.moduleName ∈ found.map (·.1) → site.Current w') := by
  induction found generalizing w answers with
  | nil => cases run; exact ⟨⟨rests,id⟩,by simp⟩
  | cons first rest ih =>
    obtain ⟨name,resolution⟩ := first
    -- what is left to be done once this name has been dealt with
    have later {answer : Option Resolution} {u : World MemoryHost} (before : site.Keeps w u)
        (mine : t = site.session → site.context.config.moduleName = name → site.Current u)
        (run : Environment.answer answer (env.intercept t file rest u) = some (.ok answers,w')) :
        site.Keeps w w' ∧
          (t = site.session → site.context.config.moduleName ∈ name :: rest.map (·.1) → site.Current w') := by
      obtain ⟨result,run,made⟩ := Environment.answer_eq_some.mp run
      cases result with
      | error fault => cases made
      | ok later =>
        obtain ⟨keeps,current⟩ := ih before.rests run
        refine ⟨before.trans keeps,fun own asked => ?_⟩
        rcases List.mem_cons.mp asked with here | there
        · exact keeps.current (mine own here)
        · exact current own there
    rw [Environment.intercept] at run
    split at run
    next bare =>
      cases run
      refine ⟨⟨rests,id⟩,?_⟩
      rintro rfl
      rw [rests.ready] at bare
      cases bare
    next context ready =>
      have own : t = site.session → context = site.context := by
        rintro rfl
        exact Option.some.inj (ready.symm.trans rests.ready)
      split at run
      next other =>
        refine later ⟨rests,id⟩ (fun same here => ?_) run
        obtain rfl := own same
        simp [Config.tracks,here] at other
      next mine =>
        simp only [Option.bind_eq_bind,Option.bind_eq_some_iff] at run
        obtain ⟨logged,log,run⟩ := run
        have resting := rests.keeps (log_heeds heard log rests.toScene)
        split at run
        next missing =>
          have noted := resting.trans (resting.rests.keeps
            (tends_record (.noted (.directoryMissing name context.config.localesDirectory)) logged))
          refine later noted (fun same here => ?_) run
          obtain rfl := own same
          have there : Host.directoryExists _ (logged.host site.context.host) = true :=
            resting.rests.grows.directoryExists present
          rw [there] at missing
          cases missing
        next there =>
          simp only [Option.bind_eq_some_iff] at run
          obtain ⟨made,regenerate,⟨result,watched⟩,refresh,run⟩ := run
          obtain ⟨runs,current⟩ := regenerate_keeps heard tools resting.rests regenerate
          cases result with
          | error fault => cases run
          | ok =>
            simp only [Option.bind_eq_some_iff] at run
            obtain ⟨told,emit,run⟩ := run
            have renewed := refreshWatches_keeps heard runs.rests own refresh
            have answered := renewed.trans (renewed.rests.keeps (emit_heeds heard emit renewed.rests.toScene))
            exact later ((resting.trans runs).trans answered) (fun same _ => answered.current (current same)) run

/-- Layers that adjust the answers have no part in it. -/
theorem ask_keeps {baseline : Resolver} {query : Query} {layers : List Layer} {answers : Answers}
    (rests : site.Rests w) (run : env.ask baseline query layers w = some (.ok answers,w')) :
    site.Keeps w w' ∧ (.session site.session ∈ layers → site.context.config.moduleName ∈ query.names →
      site.Current w') := by
  induction layers generalizing answers w' with
  | nil =>
    simp only [Environment.ask,Option.some.injEq,Prod.mk.injEq] at run
    obtain ⟨-,rfl⟩ := run
    exact ⟨rests.keeps (tends_record _ _),by simp⟩
  | cons layer inner ih =>
    simp only [Environment.ask,Option.bind_eq_bind,Option.bind_eq_some_iff] at run
    obtain ⟨⟨result,asked⟩,ask,run⟩ := run
    cases result with
    | error fault => cases run
    | ok found =>
      obtain ⟨keeps,current⟩ := ih ask
      cases layer with
      | adjust f =>
        cases run
        exact ⟨keeps,fun laid => current (by simpa using laid)⟩
      | session t =>
        simp only [Option.bind_eq_some_iff] at run
        obtain ⟨⟨result,intercepted⟩,intercept,run⟩ := run
        cases run
        obtain ⟨kept,made⟩ := intercept_keeps heard tools present (keeps.rests.hold t) intercept
        have names : (query.names.zip (found.fit query.names.length)).map (·.1) = query.names :=
          List.map_fst_zip (by simp [Answers.fit])
        rw [names] at made
        have left := kept.rests.leave t
        refine ⟨⟨left.rests,fun before => left.current (kept.current (keeps.current before))⟩,fun laid asked => ?_⟩
        rcases List.mem_cons.mp laid with own | laid
        · exact left.current (made (Layer.session.inj own).symm asked)
        · exact left.current (kept.current (current laid asked))

end Operations
end Site

/-- A session that lies over the resolver of a hook, whose locales are there and whose output is none of them.
No run of it is in flight, and no other session writes over what it reads and writes. -/
structure World.Attends (s hook : Nat) (context : Context) (w : World MemoryHost) : Prop where
  ready : (w.session s).context? = some context
  held : (w.session s).dropped = false
  idle : (w.session s).inFlight = false
  laid : (w.hooks.get hook).hasResolver ∧ .session s ∈ (w.hooks.get hook).layers
  present : (w.host context.host).directoryExists context.config.localesDirectory = true
  outside : MemoryHost.isLocaleFileOf context.config.localesDirectory context.config.outputPath = false
  accounted : w.Accounted
  others : ∀ t, t ≠ s → ∀ other, (w.session t).context? = some other → other.host = context.host →
    ¬context.config.outputPath.same other.config.outputPath = true ∧
    MemoryHost.isLocaleFileOf context.config.localesDirectory other.config.outputPath = false

/-- It goes on so when watches are renewed. -/
theorem World.Attends.rewatch {s hook : Nat} {context : Context} {w : World MemoryHost}
    (attends : w.Attends s hook context) (owner : Subscriber) (files : List Path) :
    (w.rewatch owner context.host files).2.Attends s hook context := by
  have hooks := w.hooks_rewatch context.host owner files
  have store := w.store_rewatch context.host context.host owner files
  obtain ⟨handles,own⟩ := w.session_of_rewatch context.host owner files s
  exact {
    ready := by rw [own]; exact attends.ready
    held := by rw [own]; exact attends.held
    idle := by rw [own]; exact attends.idle
    laid := by rw [hooks]; exact attends.laid
    present := (MemoryHost.Grows.of_store store).directoryExists attends.present
    outside := attends.outside
    accounted := attends.accounted.rewatch _ _ _
    others := fun t other context ready => by
      obtain ⟨handles,theirs⟩ := w.session_of_rewatch _ owner files t
      rw [theirs] at ready
      exact attends.others t other context ready}

/-- While a session is asked for its module, files that it watches may be edited at any moment: if the last run
has written, the output is what is generated from the locale files as they are on return. Collaborators see the
world in which they are told something, so that they can tell what is watched. -/
theorem resolve_current {tools : Toolchain} {behaviour : Behaviour} {depth s hook : Nat} {context : Context}
    {query : Query} {answers : Answers} {report : Report} {w w' : World MemoryHost}
    (attends : w.Attends s hook context)
    (edits : ∀ entry v, (behaviour entry v).Issues fun command =>
      ∃ path content, command = .edit context.host path content ∧
        (v.Watched s context.host path ∨ w.Listed context path ∧ w.Watched s context.host path))
    (asked : context.config.moduleName ∈ query.names)
    (run : (Environment.scripted tools behaviour depth).resolve hook query w = some (.ok answers,w'))
    (written : (w'.session s).last = some (.written report)) :
    ∃ entries source, tools.rendering .types context.config (w'.host context.host) = .ok (entries,source) ∧
      (w'.host context.host).file? context.config.outputPath = some source := by
  let site : Site := ⟨tools,s,context,w⟩
  have rests : site.Rests w :=
    ⟨⟨attends.outside,attends.ready,attends.held,attends.others,.refl _,fun _ _ => id,attends.accounted⟩,
      attends.idle⟩
  have heard {entry : Entry} {a b : World MemoryHost}
      (run : (Environment.scripted tools behaviour depth).respond entry a = some b) : site.Heeds a b :=
    Site.scripted_heeds edits depth run
  have same : (Environment.scripted tools behaviour depth).toolchain = site.tools := by cases depth <;> rfl
  obtain ⟨baseline,based⟩ := Option.isSome_iff_exists.mp attends.laid.1
  simp only [Environment.resolve,based] at run
  exact (Site.ask_keeps heard same attends.present rests run).2 attends.laid.2 asked report written

section Rephrased

/-- What is generated are the locale files themselves. -/
def Toolchain.copying : Toolchain where
  parse text := .ok (.message text "" .empty)
  generate entries _ _ := .ok (.single (String.join (entries.flatMap fun entry => entry.tree.entries.map (·.1))))

/-- The locale file is edited when the generator is called for the first time. -/
def Behaviour.rephrasing : Behaviour := fun entry _ =>
  match entry with
  | .generating _ 1 => .ofList [.edit 0 ⟨"/p/locales/en.yaml"⟩ "c: d"]
  | _ => .done

def Environment.rephrasing : Environment MemoryHost := .scripted .copying .rephrasing 1

def mainQuery : Query := ⟨["i18n"],⟨"/p/src/main.ts"⟩,none⟩

theorem manned_attends : World.manned.Attends 0 0 plainContext where
  ready := rfl
  held := rfl
  idle := rfl
  laid := ⟨rfl,List.mem_singleton.mpr rfl⟩
  present := by decide +kernel
  outside := by decide +kernel
  accounted := manned_reachable.accounted
  others t other context ready := by
    cases t with
    | zero => exact absurd rfl other
    | succ t => cases ready

/-- A name that is the session's, from one remark to the next. -/
theorem Environment.intercept_of_tracked {env : Environment MemoryHost} {s : Nat} {name : String} {file : Path}
    {found : Option Resolution} {context : Context} {w logged made watched told : World MemoryHost}
    (ready : (w.session s).context? = some context) (tracks : context.config.tracks name = true)
    (log : env.log context.logger ("resolve module: " ++ name) w = some logged)
    (present : Host.directoryExists context.config.localesDirectory (logged.host context.host) = true)
    (regenerate : env.regenerate s logged = some made)
    (watch : env.refreshWatches s context made = some (.ok (),watched))
    (emit : env.emit s (.moduleIntercepted name file) watched = some told) :
    env.intercept s file [(name,found)] w = some (.ok [some ⟨context.config.outputPath,false⟩],told) := by
  simp [intercept,ready,tracks,log,present,regenerate,watch,emit,answer,Except.map]

/-- A resolution of one name, which is the session's. -/
theorem Environment.resolve_of_tracked {env : Environment MemoryHost} {s hook : Nat} {name : String} {file : Path}
    {baseline : Resolver} {found : Answers} {context : Context} {w logged made watched told : World MemoryHost}
    (laid : w.hooks.get hook = ⟨some baseline,[.session s]⟩) (asked : baseline ⟨[name],file,none⟩ = .ok found)
    (ready : (w.session s).context? = some context) (tracks : context.config.tracks name = true)
    (log : env.log context.logger ("resolve module: " ++ name) ((w.record (.asked ⟨[name],file,none⟩)).hold s) =
      some logged)
    (present : Host.directoryExists context.config.localesDirectory (logged.host context.host) = true)
    (regenerate : env.regenerate s logged = some made)
    (watch : env.refreshWatches s context made = some (.ok (),watched))
    (emit : env.emit s (.moduleIntercepted name file) watched = some told) :
    env.resolve hook ⟨[name],file,none⟩ w =
      some (.ok [some ⟨context.config.outputPath,false⟩],(told.leave s).release s) := by
  obtain ⟨resolution,fits⟩ : ∃ resolution, found.fit 1 = [resolution] :=
    List.length_eq_one_iff.mp (by simp [Answers.fit])
  have answered : env.intercept s file [(name,resolution)] ((w.record (.asked ⟨[name],file,none⟩)).hold s) = _ :=
    intercept_of_tracked ready tracks log present regenerate watch emit
  simp [resolve,laid,ask,asked,fits,answered]

def Status.hasWritten : Status → Bool
  | .written _ => true
  | .failed _ => false

theorem Status.exists_of_hasWritten {last : Option Status} (written : last.any Status.hasWritten = true) :
    ∃ report, last = some (.written report) := by
  obtain ⟨status,rfl,shown⟩ := (Option.any_eq_true _ _).mp written
  cases status with
  | written report => exact ⟨report,rfl⟩
  | failed message => cases shown

/-- The session has heard what it is asked for. -/
def World.asking (w : World MemoryHost) : World MemoryHost :=
  ((w.record (.asked mainQuery)).hold 0).record (.logged 0 "resolve module: i18n")

/-- After its runs, the session renews the watches and answers. -/
def Environment.replies (env : Environment MemoryHost) (p : World MemoryHost → Bool) (w : World MemoryHost) : Bool :=
  (env.refreshWatches 0 plainContext w).any fun (result,u) => result.isOk ∧
    (env.emit 0 (.moduleIntercepted "i18n" mainQuery.containingFile) u).any fun v =>
      !(v.session 0).dropped && p (v.leave 0)

/-- Its answer is the output of the options that it had when it was asked. -/
theorem Environment.answers_of_replies {env : Environment MemoryHost} {p : World MemoryHost → Bool}
    {w made : World MemoryHost} (laid : w.hooks = World.manned.hooks)
    (ready : (w.session 0).context? = some plainContext)
    (log : env.log (some 0) "resolve module: i18n" ((w.record (.asked mainQuery)).hold 0) = some w.asking)
    (present : Host.directoryExists plainContext.config.localesDirectory (w.host 0) = true)
    (regenerate : env.regenerate 0 w.asking = some made) (replies : env.replies p made = true) :
    ∃ w', env.resolve 0 mainQuery w = some (.ok [some ⟨plainContext.config.outputPath,false⟩],w') ∧ p w' = true := by
  obtain ⟨⟨result,watched⟩,watch,replies⟩ := (Option.any_eq_true _ _).mp replies
  obtain ⟨ok,replies⟩ := of_decide_eq_true replies
  obtain ⟨told,emit,facts⟩ := (Option.any_eq_true _ _).mp replies
  obtain ⟨held,shown⟩ := Bool.and_eq_true_iff.mp facts
  have kept : (told.leave 0).release 0 = told.leave 0 :=
    World.release_of_there (World.gone_of_held (by simpa using held))
  cases result with
  | error fault => cases ok
  | ok =>
    have hook : w.hooks.get 0 = ⟨some fun query => .ok (query.names.map fun _ => none),[.session 0]⟩ := by
      rw [laid]
      rfl
    refine ⟨_,resolve_of_tracked hook rfl ready (by decide +kernel) log present regenerate watch emit,?_⟩
    rwa [kept]

theorem Environment.resolve_of_replies {env : Environment MemoryHost} {p : World MemoryHost → Bool}
    {w made : World MemoryHost} (laid : w.hooks = World.manned.hooks)
    (ready : (w.session 0).context? = some plainContext)
    (log : env.log (some 0) "resolve module: i18n" ((w.record (.asked mainQuery)).hold 0) = some w.asking)
    (present : Host.directoryExists plainContext.config.localesDirectory (w.host 0) = true)
    (regenerate : env.regenerate 0 w.asking = some made) (replies : env.replies p made = true) :
    ∃ answers w', env.resolve 0 mainQuery w = some (.ok answers,w') ∧ p w' = true :=
  ⟨_,answers_of_replies laid ready log present regenerate replies⟩

/-- When the session is asked for the first time, it watches nothing yet. The edit during the run is missed,
and the output is that of the text before. -/
theorem unwatched_stale : Reachable World.manned ∧ World.manned.Attends 0 0 plainContext ∧
    (∀ entry v, (Behaviour.rephrasing entry v).Issues fun command =>
      ∃ path content, command = .edit 0 path content ∧ World.manned.Listed plainContext path) ∧
    ∃ answers report w', Environment.rephrasing.resolve 0 mainQuery .manned = some (.ok answers,w') ∧
      (w'.session 0).last = some (.written report) ∧
      (w'.host 0).file? plainContext.config.outputPath = some "a: b" ∧
      (Toolchain.copying.rendering .types plainContext.config (w'.host 0)).map (·.2) = .ok "c: d" := by
  refine ⟨manned_reachable,manned_attends,fun entry v => ?_,?_⟩
  · unfold Behaviour.rephrasing
    split
    · exact ⟨⟨_,_,rfl,[⟨"/p/locales/en.yaml"⟩],by decide +kernel,_,List.mem_singleton.mpr rfl,by decide +kernel⟩,
        fun _ => trivial⟩
    · trivial
  have ran : (Environment.rephrasing.runOnce 0 (((World.manned.asking.request 0).lock 0).heed 0)).any (fun v =>
      (v.session 0).requested = false ∧ Environment.rephrasing.replies (fun w' =>
        (w'.session 0).last.any Status.hasWritten ∧
        (w'.host 0).file? plainContext.config.outputPath = some "a: b" ∧
        (Toolchain.copying.rendering .types plainContext.config (w'.host 0)).map (·.2) = .ok "c: d") (v.unlock 0)) =
      true := by
    decide +kernel
  obtain ⟨v,once,facts⟩ := (Option.any_eq_true _ _).mp ran
  obtain ⟨settled,replies⟩ := of_decide_eq_true facts
  have made := Environment.regenerate_once Environment.rephrasing rfl once settled
  obtain ⟨answers,w',run,shown⟩ :=
    Environment.resolve_of_replies rfl rfl rfl manned_attends.present made replies
  obtain ⟨written,output,rendered⟩ := of_decide_eq_true shown
  obtain ⟨report,last⟩ := Status.exists_of_hasWritten written
  exact ⟨answers,report,w',run,last,output,rendered⟩

/-- The session has its locale file watched. -/
def World.attended : World MemoryHost := (World.manned.rewatch (.session 0) 0 [⟨"/p/locales/en.yaml"⟩]).2

theorem attended_attends : World.attended.Attends 0 0 plainContext := manned_attends.rewatch _ _

/-- The locale file was edited, and the session has heard of it. -/
def World.rephrased (w : World MemoryHost) : World MemoryHost :=
  let host := (w.host 0).insert ⟨"/p/locales/en.yaml"⟩ "c: d"
  let w := ((w.setHost 0 host).setHost 0 host.prune).record (.noted (.fileChanged ⟨"/p/locales/en.yaml"⟩))
  ((w.record (.emitted 0 (.fileChanged ⟨"/p/locales/en.yaml"⟩))).request 0).record (.nested .done)

/-- An edit during a run leads to another one. -/
theorem rephrasing_respond {w : World MemoryHost} (busy : (w.session 0).inFlight = true)
    (held : (w.session 0).dropped = false) (sink : (w.session 0).sink = some 0)
    (watches : (w.host 0).watches = [⟨0,⟨"/p/locales/en.yaml"⟩,.session 0,true⟩]) :
    Environment.rephrasing.respond (.generating 0 1) w = some w.rephrased := by
  have fired : ((w.host 0).insert ⟨"/p/locales/en.yaml"⟩ "c: d").prune.watchesOn ⟨"/p/locales/en.yaml"⟩ =
      [⟨0,⟨"/p/locales/en.yaml"⟩,.session 0,true⟩] := by
    have same : ((w.host 0).insert ⟨"/p/locales/en.yaml"⟩ "c: d").prune.watches = (w.host 0).watches :=
      (MemoryHost.prune_sameWatches _).watches
    rw [MemoryHost.watchesOn,same,watches]
    decide +kernel
  simp [Environment.rephrasing,Environment.scripted,Behaviour.rephrasing,Script.ofList,Environment.follow,
    Environment.perform,Environment.notify,fired,Environment.fireAll,Environment.fire,Environment.fileChanged,held,
    Environment.emit,sink,Environment.announce,Environment.regenerate_of_inFlight,busy,World.rephrased,World.gone,
    World.release,World.request]
  rfl

/-- A run that writes, from one remark to the next. -/
theorem Environment.runOnce_of_written {env : Environment MemoryHost} {s : Nat} {context : Context}
    {entries : List Locale.Entry} {artifact : Artifact} {report : Report}
    {w logged called after noted told : World MemoryHost} (ready : (w.session s).context? = some context)
    (log : env.log context.logger ("write file: " ++ context.config.outputPath.display) (w.start s context.config) =
      some logged)
    (loaded : env.toolchain.load context.config.localesDirectory (logged.host context.host) = .ok entries)
    (call : env.announceCall (some s) logged = some called)
    (generated : env.toolchain.generate entries .types context.config.mode = .ok artifact)
    (saved : save context.host context.config.outputPath (.ok (entries,artifact.primary)) called = (.ok report,after))
    (succeeded : env.log context.logger ("write file succeed: " ++ context.config.outputPath.display) after = some noted)
    (emit : env.emit s (.regenerated report.output report.locales.length report.digest.short)
      (noted.record (.noted (.regenerated report))) = some told) :
    env.runOnce s w = some (told.finish s (.written report)) := by
  simp [runOnce,ready,produce,log,render,loaded,call,generated,saved,succeeded,emit]

/-- One run is followed by another, which is the last. -/
theorem Environment.regenerate_twice {env : Environment MemoryHost} {s : Nat} {w u v : World MemoryHost}
    (idle : (w.session s).inFlight = false) (first : env.runOnce s (((w.request s).lock s).heed s) = some u)
    (again : (u.session s).requested = true) (second : env.runOnce s (u.heed s) = some v)
    (settled : (v.session s).requested = false) : env.regenerate s w = some (v.unlock s) := by
  have drained : env.drain s ((w.request s).lock s) = some v := by
    rw [drain,if_pos (by simp [World.lock,World.request]),first]
    change env.drain s u = some v
    rw [drain,if_pos again,second]
    change env.drain s v = some v
    rw [drain,settled]
    rfl
  rw [regenerate,attempt,if_neg (by simp [World.request,idle]),drained]
  simp [World.unlock,settled]

/-- The next run sees the text after the edit, and nothing happens during it. -/
theorem attended_runs : ∃ u, (u.session 0).requested = true ∧
    Environment.rephrasing.runOnce 0 (((World.attended.asking.request 0).lock 0).heed 0) = some u ∧
    (Environment.rephrasing.runOnce 0 (u.heed 0)).any (fun v =>
      (v.session 0).requested = false ∧ Environment.rephrasing.replies (fun w' =>
        (w'.session 0).last.any Status.hasWritten ∧
        (Toolchain.copying.rendering .types plainContext.config (w'.host 0)).map (·.2) = .ok "c: d") (v.unlock 0)) =
      true := by
  have loaded : Environment.rephrasing.toolchain.load plainContext.config.localesDirectory (World.attended.host 0) =
      .ok [⟨"en",.message "a: b" "" .empty⟩] := by
    decide +kernel
  refine ⟨_,?_,Environment.runOnce_of_written rfl rfl loaded (rephrasing_respond (by decide +kernel)
    (by decide +kernel) (by decide +kernel) (by decide +kernel)) rfl rfl rfl rfl,?_⟩
  · rfl
  · decide +kernel

/-- The same edit is not missed when the session watches its locale file. -/
theorem attended_current : ∃ answers report w' entries,
    Environment.rephrasing.resolve 0 mainQuery .attended = some (.ok answers,w') ∧
    (w'.session 0).last = some (.written report) ∧
    Toolchain.copying.rendering .types plainContext.config (w'.host 0) = .ok (entries,"c: d") ∧
    (w'.host 0).file? plainContext.config.outputPath = some "c: d" := by
  obtain ⟨u,again,first,ran⟩ := attended_runs
  obtain ⟨v,second,facts⟩ := (Option.any_eq_true _ _).mp ran
  obtain ⟨settled,replies⟩ := of_decide_eq_true facts
  have made := Environment.regenerate_twice rfl first again second settled
  obtain ⟨answers,w',run,shown⟩ :=
    Environment.resolve_of_replies (w := World.attended) rfl rfl rfl attended_attends.present made replies
  obtain ⟨written,text⟩ := of_decide_eq_true shown
  obtain ⟨report,last⟩ := Status.exists_of_hasWritten written
  have edits (entry : Entry) (v : World MemoryHost) : (Behaviour.rephrasing entry v).Issues fun command =>
      ∃ path content, command = .edit 0 path content ∧
        (v.Watched 0 0 path ∨ World.attended.Listed plainContext path ∧ World.attended.Watched 0 0 path) := by
    have listed : World.attended.Listed plainContext ⟨"/p/locales/en.yaml"⟩ :=
      ⟨[⟨"/p/locales/en.yaml"⟩],by decide +kernel,_,List.mem_singleton.mpr rfl,by decide +kernel⟩
    have watched : World.attended.Watched 0 0 ⟨"/p/locales/en.yaml"⟩ :=
      ⟨⟨0,⟨"/p/locales/en.yaml"⟩,.session 0,true⟩,by decide +kernel,by decide +kernel,rfl⟩
    unfold Behaviour.rephrasing
    split
    · exact ⟨⟨_,_,rfl,.inr ⟨listed,watched⟩⟩,fun _ => trivial⟩
    · trivial
  obtain ⟨entries,source,rendered,output⟩ :=
    resolve_current attended_attends edits (List.mem_singleton.mpr rfl) run last
  have shows : (Toolchain.copying.rendering .types plainContext.config (w'.host 0)).map (·.2) = .ok source :=
    congrArg (Except.map Prod.snd) rendered
  obtain rfl : source = "c: d" := Except.ok.inj (shows.symm.trans text)
  exact ⟨answers,report,w',entries,run,last,rendered,output⟩

end Rephrased

end Phrasebook
