import Phrasebook.Proofs.Session.Disposal
import Phrasebook.Proofs.Session.Production
import Phrasebook.Proofs.Session.Resting

/-! A session that lies over a resolver answers index by index. What one name sets off leaves the answers
to the others alone: a round of regeneration and watching changes nothing that a resolution reads of the
session, and no file goes away by it (`Proceeds`). -/
namespace Phrasebook

namespace World

variable {s : Nat} {a b c w : World MemoryHost}

/-- The worlds differ by remarks, by generator calls and by files that were written. -/
structure Grown (before after : World MemoryHost) : Prop where
  sessions : ∀ s, (after.session s).uncalled = (before.session s).uncalled
  hosts : ∀ h, (before.host h).Grows (after.host h)
  holds : after.holds = before.holds
  histories : ∀ s, after.history s = before.history s
  queries : after.queries = before.queries

theorem Heard.grown (heard : a.Heard b) : a.Grown b where
  sessions := heard.sessions
  hosts h := heard.hosts h ▸ .refl _
  holds := heard.holds
  histories := heard.histories
  queries := heard.queries

theorem Grown.trans (first : a.Grown b) (next : b.Grown c) : a.Grown c where
  sessions s := (next.sessions s).trans (first.sessions s)
  hosts h := (first.hosts h).trans (next.hosts h)
  holds := next.holds.trans first.holds
  histories s := (next.histories s).trans (first.histories s)
  queries := next.queries.trans first.queries

theorem grown_save (h : Nat) (output : Path) (rendered : Except RunFault (List Locale.Entry × String)) :
    w.Grown (Environment.save h output rendered w).2 := by
  unfold Environment.save
  split
  · exact (Heard.refl w).grown
  next entries source =>
    split
    · exact (Heard.refl w).grown
    next state written =>
      refine ⟨fun _ => rfl,fun g => ?_,rfl,fun _ => rfl,rfl⟩
      rw [host_setHost]
      split
      next here => exact here ▸ MemoryHost.grows_write written
      · exact .refl _

/-- A session goes on by these milestones, so many of them runs, and keeps what a resolution reads of it. -/
structure Proceeds (s : Nat) (news : List Milestone) (runs : Nat) (before after : World MemoryHost) : Prop where
  context : (after.session s).context? = (before.session s).context?
  inFlight : (after.session s).inFlight = (before.session s).inFlight
  dropped : (after.session s).dropped = (before.session s).dropped
  holds : after.holds = before.holds
  hosts : ∀ h, (before.host h).Grows (after.host h)
  queries : after.queries = before.queries
  history : after.history s = before.history s ++ news
  runs : (after.session s).runs = (before.session s).runs + runs

theorem Proceeds.trans {news more : List Milestone} {m n : Nat} (first : Proceeds s news m a b)
    (next : Proceeds s more n b c) : Proceeds s (news ++ more) (m + n) a c where
  context := next.context.trans first.context
  inFlight := next.inFlight.trans first.inFlight
  dropped := next.dropped.trans first.dropped
  holds := next.holds.trans first.holds
  hosts h := (first.hosts h).trans (next.hosts h)
  queries := next.queries.trans first.queries
  history := by rw [next.history,first.history,List.append_assoc]
  runs := by rw [next.runs,first.runs,Nat.add_assoc]

/-- Between setting to work and being done. -/
theorem Proceeds.leave {news : List Milestone} {n : Nat} (proceeds : Proceeds s news n (a.hold s) b) :
    Proceeds s news n a (b.leave s) :=
  {proceeds with holds := by simp [World.leave,proceeds.holds,hold]}

theorem Proceeds.gone {news : List Milestone} {n : Nat} (proceeds : Proceeds s news n a b) :
    b.gone s = a.gone s := by rw [World.gone,World.gone,proceeds.dropped,proceeds.holds]

theorem Grown.same (grown : a.Grown b) {α : Type} (shown : Session → α)
    (uncalled : ∀ session, shown session.uncalled = shown session) (s : Nat) :
    shown (b.session s) = shown (a.session s) := by
  rw [← uncalled,grown.sessions s,uncalled]

theorem Grown.proceeds (grown : a.Grown b) : Proceeds s [] 0 a b where
  context := grown.same (·.context?) (fun _ => rfl) s
  inFlight := grown.same (·.inFlight) (fun _ => rfl) s
  dropped := grown.same (·.dropped) (fun _ => rfl) s
  holds := grown.holds
  hosts := grown.hosts
  queries := grown.queries
  history := by simp [grown.histories]
  runs := grown.same (·.runs) (fun _ => rfl) s

theorem queries_reach (milestone : Milestone) (f : Session → Session) :
    (w.reach s milestone f).queries = w.queries := by
  rw [reach,queries_record]
  exact List.append_nil _

theorem proceeds_reach {milestone : Milestone} {f : Session → Session} {n : Nat}
    (context : (f (w.session s)).context? = (w.session s).context?)
    (inFlight : (f (w.session s)).inFlight = (w.session s).inFlight)
    (dropped : (f (w.session s)).dropped = (w.session s).dropped)
    (runs : (f (w.session s)).runs = (w.session s).runs + n) :
    Proceeds s [milestone] n w (w.reach s milestone f) where
  context := by simpa using context
  inFlight := by simpa using inFlight
  dropped := by simpa using dropped
  holds := rfl
  hosts _ := .refl _
  queries := queries_reach _ _
  history := by simp
  runs := by simpa using runs

theorem queries_close (handle : Handle) : (w.close handle).queries = w.queries := by
  rw [close,queries_record]
  exact List.append_nil _

theorem queries_setWatches (owner : Subscriber) (handles : List Handle) :
    (w.setWatches owner handles).queries = w.queries := by
  cases owner with
  | session t => exact queries_reach _ _
  | recorder r => rfl

theorem queries_unwatch (owner : Subscriber) : (w.unwatch owner).queries = w.queries :=
  unwatch_keeps (P := fun v => v.queries = w.queries) (fun handle same => (queries_close handle).trans same)
    (fun handles same => (queries_setWatches owner handles).trans same) rfl

theorem queries_rewatch (owner : Subscriber) (h : Nat) (files : List Path) :
    (w.rewatch owner h files).2.queries = w.queries := by
  refine rewatch_keeps (P := fun v => v.queries = w.queries) (fun handle same => (queries_close handle).trans same)
    (fun handles same => (queries_setWatches owner handles).trans same) (fun _ same => ?_) files rfl
  rw [queries_record,← same]
  exact List.append_nil _

theorem proceeds_watching (handles : List Handle) {news : List Milestone}
    (session : b.session s = {a.session s with watches := handles}) (history : b.history s = a.history s ++ news)
    (hosts : ∀ h, (b.host h).store = (a.host h).store) (holds : b.holds = a.holds) (queries : b.queries = a.queries) :
    Proceeds s news 0 a b where
  context := by rw [session]; rfl
  inFlight := by rw [session]
  dropped := by rw [session]
  holds := holds
  hosts h := .of_store (hosts h)
  queries := queries
  history := history
  runs := by rw [session]; rfl

theorem proceeds_rewatch (h : Nat) (files : List Path) :
    match w.rewatch (.session s) h files with
    | (.ok _,v) => ∃ files, Proceeds s [.watching [],.watching files] 0 w v
    | (.error _,v) => Proceeds s [.watching []] 0 w v ∧ (v.session s).watches = [] := by
  have hosts (g : Nat) := store_rewatch w g h (.session s) files
  have holds := w.holds_rewatch h (.session s) files
  have queries := queries_rewatch (w := w) (.session s) h files
  have session := session_openAll (w.unwatch (.session s)) s (.session s) h files []
  have history := history_openAll (w.unwatch (.session s)) s (.session s) h files []
  rw [session_unwatch,if_pos rfl] at session
  rw [history_unwatch,if_pos rfl] at history
  rw [rewatch] at hosts holds queries ⊢
  cases opened : openAll (.session s) h files [] (w.unwatch (.session s)) with
  | mk result u =>
    rw [opened] at session history
    cases result with
    | ok handles =>
      simp only [opened] at hosts holds queries ⊢
      refine ⟨handles.map (·.path),proceeds_watching handles ?_ ?_ hosts holds queries⟩
      · rw [session_setWatches,if_pos rfl,session]
      · rw [history_setWatches,if_pos rfl,history,List.append_assoc]; rfl
    | error fault =>
      simp only [opened] at hosts holds queries ⊢
      exact ⟨proceeds_watching _ session history hosts holds queries,by rw [session]⟩

end World

namespace Environment.Quiet

variable {env : Environment MemoryHost} (quiet : env.Quiet) {w : World MemoryHost} {s : Nat} {context : Context}

include quiet

theorem produce_grown (generator : Option Nat) (h : Nat) (logger : Option Nat) (config : Config)
    (w : World MemoryHost) : ∃ result v, w.Grown v ∧ env.produce generator h logger config w = some (result,v) := by
  obtain ⟨u,result,saved,v,before,written,after,run⟩ := quiet.produce generator h logger config w
  have grown := World.grown_save (w := u) h config.outputPath (env.toolchain.rendering .types config (w.host h))
  rw [written] at grown
  exact ⟨result,v,(before.grown.trans grown).trans after.grown,run⟩

theorem runOnce (ready : (w.session s).context? = some context) : ∃ v status, env.runOnce s w = some v ∧
    World.Proceeds s [.started context.config,.ended status] 1 w v ∧
    (v.session s).requested = (w.session s).requested := by
  have started : World.Proceeds s [.started context.config] 1 w (w.start s context.config) :=
    World.proceeds_reach rfl rfl rfl rfl
  have asked : ((w.start s context.config).session s).requested = (w.session s).requested := by simp [World.start]
  obtain ⟨result,u,grown,produced⟩ :=
    quiet.produce_grown (some s) context.host context.logger context.config (w.start s context.config)
  obtain ⟨event,status,outcome⟩ : ∃ event status, env.runOnce s w =
      (env.emit s event u).map (·.finish s status) := by
    simp only [Environment.runOnce,ready,produced,Option.bind_eq_bind,Option.bind_some,Option.map_eq_bind]
    cases result with
    | ok report => exact ⟨_,.written report,rfl⟩
    | error fault => exact ⟨_,.failed fault.message,rfl⟩
  obtain ⟨v,heard,told⟩ := quiet.emit u s event
  have made := grown.trans heard.grown
  have ended : World.Proceeds s [.ended status] 0 v (v.finish s status) := World.proceeds_reach rfl rfl rfl rfl
  refine ⟨v.finish s status,status,by rw [outcome,told,Option.map_some],?_,?_⟩
  · exact (started.trans made.proceeds).trans ended
  · rw [← asked,← made.same (·.requested) (fun _ => rfl) s]
    simp [World.finish]

theorem regenerate (idle : (w.session s).inFlight = false) (ready : (w.session s).context? = some context) :
    ∃ v status, env.regenerate s w = some v ∧
      World.Proceeds s [.requested,.started context.config,.ended status] 1 w v := by
  have begun : ((((w.request s).lock s).heed s).session s).context? = some context := by
    simpa [World.request,World.lock,World.heed,Session.context?] using ready
  obtain ⟨v,status,run,made,same⟩ := quiet.runOnce begun
  have settled : (v.session s).requested = false := by simp [same,World.heed]
  refine ⟨v.unlock s,status,Environment.regenerate_once env idle run settled,?_⟩
  exact {
    context := by
      have kept : ((v.unlock s).session s).context? = (v.session s).context? := by
        simp [World.unlock,Session.context?]
      rw [kept,made.context,begun,ready]
    inFlight := by simp [World.unlock,idle]
    dropped := by simpa [World.unlock,World.request,World.lock,World.heed] using made.dropped
    holds := made.holds
    hosts := made.hosts
    queries := made.queries.trans (World.queries_reach _ _)
    history := by simpa [World.unlock,World.request,World.lock,World.heed] using made.history
    runs := by simpa [World.unlock,World.request,World.lock,World.heed] using made.runs}

theorem refreshWatches (context : Context) (w : World MemoryHost) :
    ∃ result v, env.refreshWatches s context w = some (result,v) ∧
      match result with
      | .ok _ => ∃ files, World.Proceeds s [.watching [],.watching files] 0 w v
      | .error _ => (∃ news, World.Proceeds s news 0 w v) ∧ ((v.session s).watches = [] ∨
          ∃ fault, Host.list context.config.localesDirectory (w.host context.host) = .error fault) := by
  rw [Environment.refreshWatches]
  cases listed : Host.list context.config.localesDirectory (w.host context.host) with
  | error fault => exact ⟨_,w,rfl,⟨[],(World.Heard.refl w).grown.proceeds⟩,.inr ⟨fault,rfl⟩⟩
  | ok files =>
    obtain ⟨closing,first,close⟩ :=
      quiet.log w (if (w.session s).watches.isEmpty then none else context.logger) "close file watchers"
    obtain ⟨opening,next,log⟩ := quiet.log closing context.logger "watch files"
    have before : World.Proceeds s [] 0 w opening := (first.trans next).grown.proceeds
    have watched := World.proceeds_rewatch (s := s) (w := opening) context.host files
    cases rewatch : opening.rewatch (.session s) context.host files with
    | mk result u =>
      rw [rewatch] at watched
      cases result with
      | error fault =>
        refine ⟨.error fault,u,?_,⟨_,before.trans watched.1⟩,.inl watched.2⟩
        simp only [close,log,rewatch,Option.bind_eq_bind,Option.bind_some]
      | ok refreshed =>
        obtain ⟨told,third,told'⟩ := quiet.log u context.logger ("watched " ++ toString refreshed.opened ++ " files")
        obtain ⟨v,last,emit⟩ := quiet.emit told s (.watchesRefreshed refreshed.opened refreshed.closed)
        obtain ⟨files,watched⟩ := watched
        have after : World.Proceeds s [] 0 u v := (third.trans last).grown.proceeds
        refine ⟨.ok (),v,?_,files,(before.trans watched).trans after⟩
        simp only [close,log,rewatch,told',emit,Option.bind_eq_bind,Option.bind_some]

end Environment.Quiet

namespace World

/-- The answer of the session to a name, if it has one. -/
def serve? (s : Nat) (w : World MemoryHost) (name : String) : Option Resolution :=
  match (w.session s).context? with
  | none => none
  | some context =>
    if context.config.tracks name &&
        Host.directoryExists context.config.localesDirectory (w.host context.host) then
      some ⟨context.config.outputPath,false⟩
    else none

/-- How many of the names the session answers. -/
def served (s : Nat) (w : World MemoryHost) (names : List String) : Nat :=
  names.countP fun name => (w.serve? s name).isSome

variable {s : Nat} {v w : World MemoryHost}

theorem serve?_congr (context : (v.session s).context? = (w.session s).context?)
    (present : ∀ context, (w.session s).context? = some context →
      Host.directoryExists context.config.localesDirectory (v.host context.host) =
        Host.directoryExists context.config.localesDirectory (w.host context.host)) (name : String) :
    v.serve? s name = w.serve? s name := by
  rw [serve?,serve?,context]
  split
  · rfl
  next ready => rw [present _ ready]

theorem Heard.serve? (heard : w.Heard v) (name : String) : v.serve? s name = w.serve? s name :=
  serve?_congr (heard.same (·.context?) (fun _ => rfl) s) (fun context _ => by rw [heard.hosts]) name

/-- No file goes away, so the locales directory does not either. -/
theorem Proceeds.serve? {news : List Milestone} {n : Nat} {context : Context} (proceeds : Proceeds s news n w v)
    (ready : (w.session s).context? = some context)
    (present : Host.directoryExists context.config.localesDirectory (w.host context.host) = true) (name : String) :
    v.serve? s name = w.serve? s name := by
  refine serve?_congr proceeds.context (fun other found => ?_) name
  obtain rfl := Option.some.inj (ready.symm.trans found)
  exact ((proceeds.hosts _).directoryExists present).trans present.symm

end World

/-- A regeneration and what is watched after it. -/
structure Round where
  config : Config
  status : Status
  files : List Path

def Round.milestones (round : Round) : List Milestone :=
  [.requested,.started round.config,.ended round.status,.watching [],.watching round.files]

/-- Each position that the session answers has taken one round, and the others nothing. -/
structure Answered (s : Nat) (found : List (String × Option Resolution)) (answers : Answers)
    (w v : World MemoryHost) : Prop where
  answers : answers = found.map fun (name,resolution) => (w.serve? s name).or resolution
  rounds : ∃ rounds : List Round, rounds.length = w.served s (found.map (·.1)) ∧
    (∀ round ∈ rounds, (w.session s).context?.map (·.config) = some round.config) ∧
    World.Proceeds s (rounds.flatMap Round.milestones) rounds.length w v

/-- At some position that the session answers, after a round for each such position before it and one more
regeneration, the watches could not be renewed. None is left then, unless it was the listing that failed; and
listing a directory that is there fails only on a host that refuses to list. -/
structure Unanswered (env : Environment MemoryHost) (s : Nat) (names : List String) (fault : HostFault)
    (w v : World MemoryHost) : Prop where
  fails : ∃ before name after context u, names = before ++ name :: after ∧ (w.serve? s name).isSome ∧
    (w.session s).context? = some context ∧ (∃ news, World.Proceeds s news (w.served s before + 1) w u) ∧
    env.refreshWatches s context u = some (.error fault,v) ∧ ∃ news, World.Proceeds s news 0 u v
  unwatched : ∀ context, (w.session s).context? = some context → (w.host context.host).refusesListing = false →
    (v.session s).watches = []

/-- What comes out for names with what was found for them below the session. -/
def Concludes (env : Environment MemoryHost) (s : Nat) (found : List (String × Option Resolution))
    (w : World MemoryHost) : Except HostFault Answers × World MemoryHost → Prop
  | (.ok answers,v) => Answered s found answers w v
  | (.error fault,v) => Unanswered env s (found.map (·.1)) fault w v

/-- One name has had its round, if the session answers it, and the answers to all names stay the same. -/
structure Handled (s : Nat) (name : String) (w v : World MemoryHost) : Prop where
  serve : ∀ other, v.serve? s other = w.serve? s other
  rounds : ∃ rounds : List Round, rounds.length = w.served s [name] ∧
    (∀ round ∈ rounds, (w.session s).context?.map (·.config) = some round.config) ∧
    World.Proceeds s (rounds.flatMap Round.milestones) rounds.length w v

namespace Handled

variable {env : Environment MemoryHost} {s : Nat} {name : String} {u v w : World MemoryHost}

theorem served (handled : Handled s name w v) (names : List String) :
    w.served s (name :: names) = w.served s [name] + v.served s names := by
  have same : v.served s names = w.served s names := by simp only [World.served,handled.serve]
  rw [same,World.served,World.served,World.served,← List.countP_append,List.singleton_append]

theorem answered {found : List (String × Option Resolution)} {answers : Answers} (handled : Handled s name w v)
    (resolution : Option Resolution) (rest : Answered s found answers v u) :
    Answered s ((name,resolution) :: found) ((w.serve? s name).or resolution :: answers) w u := by
  obtain ⟨first,one,configured,proceeds⟩ := handled.rounds
  obtain ⟨rounds,count,others,follows⟩ := rest.rounds
  refine ⟨by rw [rest.answers]; simp [handled.serve],first ++ rounds,?_,?_,?_⟩
  · rw [List.map_cons,handled.served (found.map (·.1)),List.length_append,one,count]
  · rw [proceeds.context] at others
    intro round member
    exact (List.mem_append.mp member).elim (configured round) (others round)
  · rw [List.flatMap_append,List.length_append]
    exact proceeds.trans follows

theorem unanswered {names : List String} {fault : HostFault} (handled : Handled s name w v)
    (rest : Unanswered env s names fault v u) : Unanswered env s (name :: names) fault w u := by
  obtain ⟨before,failing,after,context,last,rfl,serves,ready,⟨news,follows⟩,refresh,later⟩ := rest.fails
  obtain ⟨rounds,one,-,proceeds⟩ := handled.rounds
  refine ⟨⟨name :: before,failing,after,context,last,rfl,?_,?_,?_,refresh,later⟩,?_⟩
  · rwa [← handled.serve]
  · rwa [← proceeds.context]
  · rw [handled.served before,Nat.add_assoc,← one]
    exact ⟨_,proceeds.trans follows⟩
  · intro context ready permits
    exact rest.unwatched context (proceeds.context.trans ready) ((proceeds.hosts _).refusesListing.trans permits)

theorem concludes {found : List (String × Option Resolution)} {resolution answer : Option Resolution}
    {rest : Option (Except HostFault Answers × World MemoryHost)} (handled : Handled s name w v)
    (chosen : answer = (w.serve? s name).or resolution) (later : ∃ outcome, rest = some outcome ∧
      Concludes env s found v outcome) : ∃ outcome, Environment.answer answer rest = some outcome ∧
      Concludes env s ((name,resolution) :: found) w outcome := by
  obtain ⟨⟨result,u⟩,rfl,concluded⟩ := later
  refine ⟨(result.map (answer :: ·),u),rfl,?_⟩
  cases result with
  | ok answers => exact chosen ▸ handled.answered resolution concluded
  | error fault => exact handled.unanswered concluded

end Handled

namespace Environment.Quiet

variable {env : Environment MemoryHost} (quiet : env.Quiet) {w : World MemoryHost} {s : Nat}

include quiet

theorem intercept (idle : (w.session s).inFlight = false) (file : Path)
    (found : List (String × Option Resolution)) :
    ∃ outcome, env.intercept s file found w = some outcome ∧ Concludes env s found w outcome := by
  induction found generalizing w with
  | nil => exact ⟨_,rfl,rfl,[],rfl,by simp,(World.Heard.refl w).grown.proceeds⟩
  | cons first rest ih =>
    obtain ⟨name,resolution⟩ := first
    rw [Environment.intercept]
    split
    next bare =>
      have unserved (name : String) : w.serve? s name = none := by rw [World.serve?,bare]
      refine ⟨_,rfl,?_,[],?_,by simp,(World.Heard.refl w).grown.proceeds⟩
      · simp [unserved]
      · simp [World.served,unserved]
    next context ready =>
      have serve : w.serve? s name = if context.config.tracks name &&
          Host.directoryExists context.config.localesDirectory (w.host context.host) then
            some ⟨context.config.outputPath,false⟩ else none := by rw [World.serve?,ready]
      split
      next untracked =>
        have unserved : w.serve? s name = none := by simp_all
        have skipped : Handled s name w w :=
          ⟨fun _ => rfl,[],by simp [World.served,unserved],by simp,(World.Heard.refl w).grown.proceeds⟩
        exact skipped.concludes (by simp [unserved]) (ih idle)
      next tracked =>
        obtain ⟨told,heard,log⟩ := quiet.log w context.logger ("resolve module: " ++ name)
        simp only [log,Option.bind_eq_bind,Option.bind_some]
        split
        next absent =>
          rw [heard.hosts] at absent
          have unserved : w.serve? s name = none := by simp_all
          have remark : told.Heard (told.record
              (.noted (.directoryMissing name context.config.localesDirectory))) := .record (fun _ => rfl) rfl
          have noted := heard.trans remark
          have skipped : Handled s name w (told.record
              (.noted (.directoryMissing name context.config.localesDirectory))) :=
            ⟨noted.serve?,[],by simp [World.served,unserved],by simp,noted.grown.proceeds⟩
          exact skipped.concludes (by simp [unserved]) (ih ((noted.same (·.inFlight) (fun _ => rfl) s).trans idle))
        next present =>
          have present : Host.directoryExists context.config.localesDirectory (w.host context.host) = true := by
            simpa [heard.hosts] using present
          have served : w.serve? s name = some ⟨context.config.outputPath,false⟩ := by simp_all
          have begun : World.Proceeds s [] 0 w told := heard.grown.proceeds
          obtain ⟨made,status,regenerate,run⟩ :=
            quiet.regenerate (begun.inFlight.trans idle) (begun.context.trans ready)
          have before := begun.trans run
          obtain ⟨result,v,refresh,watched⟩ := quiet.refreshWatches (s := s) context made
          simp only [regenerate,refresh,Option.bind_some]
          cases result with
          | error fault =>
            obtain ⟨later,unwatched⟩ := watched
            refine ⟨_,rfl,⟨[],name,_,context,made,rfl,by simp [served],ready,?_,refresh,later⟩,?_⟩
            · exact ⟨_,before⟩
            · intro own found permits
              obtain rfl := Option.some.inj (ready.symm.trans found)
              refine unwatched.resolve_right ?_
              rintro ⟨cause,refused⟩
              have still := (before.hosts context.host).directoryExists present
              have refuses := MemoryHost.list_refused still refused
              rw [(before.hosts _).refusesListing,permits] at refuses
              cases refuses
          | ok =>
            obtain ⟨files,watching⟩ := watched
            obtain ⟨last,told,emit⟩ := quiet.emit v s (.moduleIntercepted name file)
            have after : World.Proceeds s [] 0 v last := told.grown.proceeds
            have whole := (before.trans watching).trans after
            have rounds : Handled s name w last := by
              refine ⟨whole.serve? ready present,[⟨context.config,status,files⟩],?_,?_,whole⟩
              · simp [World.served,served]
              · simp [ready]
            simp only [emit,Option.bind_some]
            exact rounds.concludes (by simp [served]) (ih (whole.inFlight.trans idle))

end Environment.Quiet

theorem Answers.getElem?_fit {i n : Nat} (found : Answers) (bound : i < n) :
    (found.fit n)[i]? = some found[i]?.join := by
  rw [fit,List.getElem?_take_of_lt bound,List.getElem?_append]
  split
  next inside => simp [List.getElem?_eq_getElem inside]
  next outside =>
    have missing : found[i]? = none := List.getElem?_eq_none (Nat.le_of_not_lt outside)
    rw [missing,List.getElem?_replicate,if_pos (by omega)]
    rfl

theorem Outline.replay_unconfigured {outline : Outline} (news : List Milestone)
    (bare : outline.disposed = true → outline.config = none) :
    (outline.replay news).disposed = true → (outline.replay news).config = none := by
  induction news generalizing outline with
  | nil => exact bare
  | cons first rest ih => exact ih (by cases first <;> simp_all [redraw])

theorem Reachable.unconfigured {s : Nat} {w : World MemoryHost} (reached : Reachable w)
    (disposed : (w.session s).phase = .disposed) : (w.session s).config = none := by
  obtain ⟨start,fresh,leads⟩ := reached
  obtain ⟨news,told⟩ := (history_tells (fun _ => True) s).leads leads
  have bare : (start.session s).outline.disposed = true → (start.session s).outline.config = none := by
    rw [fresh.sessions s]
    simp [Session.outline]
  have outline := Outline.replay_unconfigured news bare
  rw [← told.outline] at outline
  exact outline (by simpa [Session.outline] using disposed)

/-- A session that has no options, or was disposed of, or was dropped at some time. -/
inductive Silent (s : Nat) : World MemoryHost → Prop where
  | bare {w : World MemoryHost} (held : (w.session s).dropped = false)
      (bare : (w.session s).context? = none) : Silent s w
  | disposed {w : World MemoryHost} (held : (w.session s).dropped = false) (reached : Reachable w)
      (disposed : (w.session s).phase = .disposed) : Silent s w
  | dropped {u v w : World MemoryHost} {tools : Toolchain} {behaviour : Behaviour} {depth : Nat} {reply : Reply}
      (held : (u.session s).dropped = false) (reached : Reachable u)
      (drop : (Environment.scripted tools behaviour depth).perform (.drop s) u = some (reply,v))
      (since : Leads v w) : Silent s w

theorem World.Closed.of_drop {s : Nat} {u v : World MemoryHost} {tools : Toolchain} {behaviour : Behaviour}
    {depth : Nat} (reached : Reachable u)
    (drop : (Environment.scripted tools behaviour depth).drop s u = some v) : v.Closed s := by
  simp only [Environment.drop,Option.bind_eq_bind,Option.bind_eq_some_iff] at drop
  obtain ⟨last,dispose,same⟩ := drop
  have ended : (last.session s).phase = .disposed ∧ (last.session s).config = none := by
    rw [Environment.dispose] at dispose
    split at dispose
    next disposed => cases dispose; exact ⟨disposed,reached.unconfigured disposed⟩
    · simp only [Option.bind_eq_bind,Option.bind_eq_some_iff] at dispose
      obtain ⟨told,log,emit⟩ := dispose
      have retired : ((u.retire s).unwatch (.session s)).Closed s := by
        constructor <;> simp [World.retire]
      have heard {entry : Entry} {w w' : World MemoryHost}
          (run : (Environment.scripted tools behaviour depth).respond entry w = some w') : w.Closed s → w'.Closed s :=
        Environment.scripted_issues_any tools behaviour depth (closed_lasting _ s) run
      have lasting := closed_lasting (fun _ => True) s
      have closed := lasting.emit heard emit (lasting.log heard log retired)
      exact ⟨closed.phase,closed.config⟩
  have unheld : last.holds = [] :=
    ((Rests.scripted tools behaviour depth).dispose (.inr trivial) dispose).holds.trans reached.unheld
  have gone : (last.modify s fun session => {session with dropped := true}).gone s = true := by
    simp only [World.gone,World.session_modify,if_pos,Bool.true_and]
    simp [World.modify,unheld]
  cases same
  rw [World.release,if_pos gone]
  constructor <;> simp [ended]

theorem Silent.unheard {s : Nat} {w : World MemoryHost} (silent : Silent s w) :
    (w.session s).context? = none ∧ ((w.session s).dropped = true → (w.session s).watches = []) := by
  cases silent with
  | bare held bare => exact ⟨bare,by simp [held]⟩
  | disposed held reached disposed =>
    exact ⟨by simp [Session.context?,reached.unconfigured disposed],by simp [held]⟩
  | @dropped u v _ tools behaviour depth reply held reached drop since =>
    have closed : w.Closed s := by
      refine (closed_lasting _ s).leads since ?_
      simp only [Environment.perform,Environment.onSession,held,Bool.false_eq_true,if_false,Option.bind_eq_bind,
        Option.bind_eq_some_iff] at drop
      obtain ⟨left,drop,same⟩ := drop
      cases same
      exact .of_drop reached drop
    exact ⟨by simp [Session.context?,closed.config],fun _ => closed.watches⟩

/-- Every name has its answer: the generated file, if the session serves the name, or else what was found
below it. Each name that it serves has taken one run and one renewal of the watches. -/
structure Indexwise (s : Nat) (names : List String) (found answers : Answers) (w v : World MemoryHost) : Prop where
  length : answers.length = names.length
  answers : ∀ (i : Nat) (name : String), names[i]? = some name →
    answers[i]? = some ((w.serve? s name).or found[i]?.join)
  runs : (v.session s).runs = (w.session s).runs + w.served s names
  rounds : ∃ rounds : List Round, rounds.length = w.served s names ∧
    v.history s = w.history s ++ rounds.flatMap Round.milestones ++ if w.gone s then [.watching []] else []

/-- At some name that the session serves the watches could not be renewed, after one run for each such name
before it and one more. If the host lists what is there, nothing is watched any more. -/
structure Interrupted (env : Environment MemoryHost) (s : Nat) (names : List String) (fault : HostFault)
    (w v : World MemoryHost) : Prop where
  fails : ∃ before name after context a b, names = before ++ name :: after ∧ (w.serve? s name).isSome ∧
    (w.session s).context? = some context ∧ (a.session s).runs = (w.session s).runs + w.served s before + 1 ∧
    env.refreshWatches s context a = some (.error fault,b) ∧ v = (b.leave s).release s ∧
    (v.session s).runs = (a.session s).runs
  unwatched : ∀ context, (w.session s).context? = some context → (w.host context.host).refusesListing = false →
    (v.session s).watches = []

theorem World.proceeds_release {s : Nat} (w : World MemoryHost) :
    World.Proceeds s (if w.gone s then [.watching []] else []) 0 w (w.release s) := by
  unfold release
  split
  · refine proceeds_watching [] ?_ ?_ (fun h => store_unwatch w h _) (w.holds_unwatch _) (queries_unwatch _) <;> simp
  · exact (Heard.refl w).grown.proceeds

theorem Answered.indexwise {s : Nat} {names : List String} {found answers : Answers} {w v : World MemoryHost}
    (answered : Answered s (names.zip (found.fit names.length)) answers (w.hold s) v) :
    Indexwise s names found answers w ((v.leave s).release s) := by
  have fits : (found.fit names.length).length = names.length := by simp [Answers.fit]
  have whole : (names.zip (found.fit names.length)).map (·.1) = names := List.map_fst_zip (Nat.le_of_eq fits.symm)
  obtain ⟨rounds,count,-,proceeds⟩ := answered.rounds
  rw [whole] at count
  have released := World.proceeds_release (s := s) (v.leave s)
  rw [proceeds.leave.gone] at released
  have after := proceeds.leave.trans released
  refine ⟨?_,fun i name at_ => ?_,?_,rounds,count,?_⟩
  · simp [answered.answers,fits]
  · have bound : i < names.length := (List.getElem?_eq_some_iff.mp at_).1
    have both : (names.zip (found.fit names.length))[i]? = some (name,found[i]?.join) :=
      List.getElem?_zip_eq_some.mpr ⟨at_,Answers.getElem?_fit found bound⟩
    rw [answered.answers,List.getElem?_map,both]
    rfl
  · rw [after.runs,count]; rfl
  · rw [after.history,List.append_assoc]

theorem Unanswered.interrupted {env : Environment MemoryHost} {s : Nat} {names : List String} {fault : HostFault}
    {w v : World MemoryHost} (unanswered : Unanswered env s names fault (w.hold s) v) :
    Interrupted env s names fault w ((v.leave s).release s) := by
  obtain ⟨before,name,after,context,u,split,served,ready,⟨_,proceeds⟩,refresh,⟨_,later⟩⟩ := unanswered.fails
  have released := World.proceeds_release (s := s) (v.leave s)
  refine ⟨⟨before,name,after,context,u,v,split,served,ready,proceeds.runs,refresh,rfl,?_⟩,?_⟩
  · rw [released.runs]; exact later.runs
  · intro context ready permits
    unfold World.release
    split
    · simp
    · exact unanswered.unwatched context ready permits

theorem Concludes.queries {env : Environment MemoryHost} {s : Nat} {found : List (String × Option Resolution)}
    {w v : World MemoryHost} {result : Except HostFault Answers} (concludes : Concludes env s found w (result,v)) :
    v.queries = w.queries := by
  cases result with
  | ok answers =>
    obtain ⟨_,_,_,proceeds⟩ := Answered.rounds concludes
    exact proceeds.queries
  | error fault =>
    obtain ⟨_,_,_,_,_,_,_,_,⟨_,proceeds⟩,_,⟨_,later⟩⟩ := Unanswered.fails concludes
    exact later.queries.trans proceeds.queries

theorem intercept_bare {env : Environment MemoryHost} {s : Nat} {w : World MemoryHost}
    (bare : (w.session s).context? = none) (file : Path) (found : List (String × Option Resolution)) :
    env.intercept s file found w = some (.ok (found.map (·.2)),w) := by
  cases found with
  | nil => rfl
  | cons first rest =>
    obtain ⟨name,resolution⟩ := first
    rw [Environment.intercept]
    simp [bare]

theorem World.release_unwatched {s : Nat} {w : World MemoryHost}
    (unwatched : w.gone s = true → (w.session s).watches = []) :
    (∀ t, (w.release s).session t = w.session t) ∧ ∀ h, (w.release s).host h = w.host h := by
  unfold release
  split
  next left =>
    have empty := unwatched left
    refine ⟨fun t => ?_,fun h => ?_⟩
    · rw [session_unwatch]
      split
      next same => cases same; rw [← empty]
      · rfl
    · rw [unwatch,host_setWatches,watches,empty]
      rfl
  · exact ⟨fun _ => rfl,fun _ => rfl⟩

section Resolving

variable {env : Environment MemoryHost} {s hook : Nat} {baseline : Resolver} {w : World MemoryHost}

/-- A session has its say after what lies below it, and is held while it has it. -/
theorem Environment.ask_session {query : Query} {inner : List Layer} {found : Answers} {u v : World MemoryHost}
    {result : Except HostFault Answers} (below : env.ask baseline query inner w = some (.ok found,u))
    (run : env.intercept s query.containingFile (query.names.zip (found.fit query.names.length)) (u.hold s) =
      some (result,v)) :
    env.ask baseline query (.session s :: inner) w = some (result,(v.leave s).release s) := by
  simp [ask,below,run]

/-- A resolver with a session over it is asked once. If it fails, so does the resolution, and that is all. If
not, each name has the answer of the session or its own, and so many runs and renewals of the watches have
taken place as the session answers names; or a renewal fails on the way, and nothing is watched. -/
theorem resolve_indexwise (quiet : env.Quiet) (laid : w.hooks.get hook = ⟨some baseline,[.session s]⟩)
    (idle : (w.session s).inFlight = false) (query : Query) :
    match baseline query with
    | .error fault => env.resolve hook query w = some (.error fault,w.record (.asked query))
    | .ok found => ∃ result v, env.resolve hook query w = some (result,v) ∧ v.queries = w.queries ++ [query] ∧
      (match result with
      | .ok answers => Indexwise s query.names found answers w v
      | .error fault => Interrupted env s query.names fault w v) ∧
      (Silent s w → result = .ok (found.fit query.names.length) ∧
        (∀ t, v.session t = w.session t) ∧ ∀ h, v.host h = w.host h) := by
  have layered : env.resolve hook query w = env.ask baseline query [.session s] w := by
    rw [Environment.resolve,laid]
  cases asked : baseline query with
  | error fault => simp [layered,Environment.ask,asked]
  | ok found =>
    obtain ⟨⟨result,v⟩,run,concluded⟩ := quiet.intercept (w := (w.record (.asked query)).hold s) idle query.containingFile
      (query.names.zip (found.fit query.names.length))
    have resolved : env.resolve hook query w = some (result,(v.leave s).release s) :=
      layered.trans (Environment.ask_session (by rw [Environment.ask,asked]) run)
    have released := World.proceeds_release (s := s) (v.leave s)
    refine ⟨result,(v.leave s).release s,resolved,?_,?_,fun silent => ?_⟩
    · rw [released.queries]
      exact concluded.queries.trans (World.queries_record _ _)
    · cases result with
      | ok answers =>
        obtain ⟨length,answers,runs,rounds⟩ := Answered.indexwise concluded
        have start : (w.record (.asked query)).history s = w.history s := by simp [Entry.milestone?]
        rw [start] at rounds
        exact ⟨length,answers,runs,rounds⟩
      | error fault =>
        have names : (query.names.zip (found.fit query.names.length)).map (·.1) = query.names :=
          List.map_fst_zip (by simp [Answers.fit])
        have unanswered : Unanswered env s _ fault ((w.record (.asked query)).hold s) v := concluded
        rw [names] at unanswered
        obtain ⟨fails,unwatched⟩ := unanswered.interrupted
        exact ⟨fails,unwatched⟩
    · obtain ⟨bare,unwatched⟩ := silent.unheard
      rw [intercept_bare (w := (w.record (.asked query)).hold s) bare] at run
      cases run
      rw [World.leave_hold]
      refine ⟨?_,World.release_unwatched fun gone => unwatched (World.dropped_of_gone gone)⟩
      rw [List.map_snd_zip (by simp [Answers.fit])]

end Resolving

/-- Answers names in turn, each regeneration being over after one run. -/
def Environment.interceptOnce (env : Environment MemoryHost) (s : Nat) (file : Path) :
    List (String × Option Resolution) → World MemoryHost → Option (Answers × World MemoryHost)
  | [],w => some ([],w)
  | (name,found) :: rest,w => do
    let context ← (w.session s).context?
    if context.config.tracks name then
      let logged ← env.log context.logger ("resolve module: " ++ name) w
      if Host.directoryExists context.config.localesDirectory (logged.host context.host) then
        match ← env.refreshWatches s context (← env.regenerateOnce s logged) with
        | (.error _,_) => none
        | (.ok (),watched) =>
          let told ← env.emit s (.moduleIntercepted name file) watched
          (env.interceptOnce s file rest told).map fun (answers,v) =>
            (some ⟨context.config.outputPath,false⟩ :: answers,v)
      else none
    else (env.interceptOnce s file rest w).map fun (answers,v) => (found :: answers,v)

theorem Environment.intercept_of_once {env : Environment MemoryHost} {s : Nat} {file : Path}
    {found : List (String × Option Resolution)} {answers : Answers} {w v : World MemoryHost}
    (run : env.interceptOnce s file found w = some (answers,v)) :
    env.intercept s file found w = some (.ok answers,v) := by
  induction found generalizing w answers with
  | nil => cases run; rfl
  | cons first rest ih =>
    obtain ⟨name,resolution⟩ := first
    simp only [interceptOnce,Option.bind_eq_bind,Option.bind_eq_some_iff] at run
    obtain ⟨context,ready,run⟩ := run
    split at run
    next tracks =>
      simp only [Option.bind_eq_some_iff] at run
      obtain ⟨logged,log,run⟩ := run
      split at run
      next present =>
        simp only [Option.bind_eq_some_iff] at run
        obtain ⟨made,once,⟨result,watched⟩,watch,run⟩ := run
        cases result with
        | error fault => cases run
        | ok =>
          simp only [Option.bind_eq_some_iff,Option.map_eq_some_iff] at run
          obtain ⟨told,emit,⟨later,u⟩,onwards,same⟩ := run
          cases same
          simp [intercept,ready,tracks,log,present,regenerate_of_once once,watch,emit,ih onwards,answer,Except.map]
      · contradiction
    next passes =>
      simp only [Option.map_eq_some_iff] at run
      obtain ⟨⟨later,u⟩,onwards,same⟩ := run
      cases same
      simp [intercept,ready,passes,ih onwards,answer,Except.map]

/-- The name of the locales' module, a name that means nothing, and the former again. -/
def echoed : Query := ⟨["i18n","a","i18n"],⟨"/p/src/main.ts"⟩,none⟩

theorem manned_resolves : ∃ v, Environment.stamping.resolve 0 echoed .manned = some (.ok
      [some ⟨⟨"/p/src/i18n.d.ts"⟩,false⟩,none,some ⟨⟨"/p/src/i18n.d.ts"⟩,false⟩],v) ∧
    v.queries = [echoed] ∧ (v.session 0).runs = 2 := by
  have laid : World.manned.hooks.get 0 =
      ⟨some fun query => .ok (query.names.map fun _ => none),[.session 0]⟩ := rfl
  have ran : (Environment.stamping.interceptOnce 0 echoed.containingFile (echoed.names.map (·,none))
      ((World.manned.record (.asked echoed)).hold 0)).isSome = true := by decide +kernel
  obtain ⟨⟨answers,u⟩,once⟩ := Option.isSome_iff_exists.mp ran
  obtain ⟨result,v,run,queries,outcome,-⟩ := resolve_indexwise Environment.stamping_quiet laid rfl echoed
  obtain ⟨rfl,rfl⟩ : (.ok answers,(u.leave 0).release 0) = (result,v) := by
    have resolved : Environment.stamping.resolve 0 echoed .manned = some (.ok answers,(u.leave 0).release 0) := by
      rw [Environment.resolve,laid]
      exact Environment.ask_session rfl (Environment.intercept_of_once once)
    exact Option.some.inj (resolved.symm.trans run)
  obtain ⟨length,at_,runs,-⟩ := outcome
  have served : World.manned.served 0 echoed.names = 2 := by decide +kernel
  have own : World.manned.serve? 0 "i18n" = some ⟨⟨"/p/src/i18n.d.ts"⟩,false⟩ := by decide +kernel
  have other : World.manned.serve? 0 "a" = none := by decide +kernel
  have first := at_ 0 "i18n" rfl
  have second := at_ 1 "a" rfl
  have third := at_ 2 "i18n" rfl
  rw [own] at first third
  rw [other] at second
  obtain ⟨x,y,z,rfl⟩ := List.length_eq_three.mp length
  cases first
  cases second
  cases third
  exact ⟨_,run,by rw [queries]; rfl,by rw [runs,served]; rfl⟩

end Phrasebook
