import Phrasebook.Proofs.Session.Resting
import Phrasebook.Proofs.Session.Running

/-! A session looks for locale files that came or went. If there are any, it runs once and then watches what is listed
by that time, also a file that the run itself has put there; so the next look finds nothing new and does nothing. If
a watch is refused, no watch is left, and the first look after the host has recovered makes up for it:
`refresh_converges`. -/
namespace Phrasebook

namespace MemoryHost

variable {host state : MemoryHost} {path : Path} {id : WatchId} {subscriber : Subscriber} {fault : HostFault}

/-- So many more watches can be opened. -/
def Admits (host : MemoryHost) (n : Nat) : Prop :=
  n = 0 ∨ host.refusesWatches = false ∧ ∀ budget, host.watchBudget = some budget → n ≤ budget

theorem Admits.congr {a b : MemoryHost} (refuses : b.refusesWatches = a.refusesWatches)
    (budget : b.watchBudget = a.watchBudget) (n : Nat) : b.Admits n ↔ a.Admits n := by
  rw [Admits,Admits,refuses,budget]

/-- A watch that is opened leaves room for one less. -/
theorem admits_of_watch (opens : Host.watch path subscriber host = .ok (id,state)) (n : Nat) :
    host.Admits (n + 1) ↔ state.Admits n := by
  change host.watch path subscriber = .ok (id,state) at opens
  rw [watch] at opens
  cases before : host.watchBudget with
  | none =>
    simp only [before,spend?] at opens
    split at opens
    · contradiction
    next accepts =>
      cases opens
      simp [Admits,accepts,before]
  | some budget =>
    cases budget with
    | zero => simp [before,spend?] at opens
    | succ budget =>
      simp only [before,spend?] at opens
      split at opens
      · contradiction
      next accepts =>
        cases opens
        simp only [Admits,accepts,before,Option.some.injEq,forall_eq',true_and]
        omega

theorem not_admits_of_watch (refused : Host.watch path subscriber host = .error fault) (n : Nat) :
    ¬host.Admits (n + 1) ∧ ∃ cause, fault = .watch path cause := by
  change host.watch path subscriber = .error fault at refused
  rw [watch] at refused
  cases before : host.watchBudget with
  | none =>
    simp only [before,spend?] at refused
    split at refused
    next refuses =>
      cases refused
      exact ⟨by simp [Admits,refuses],_,rfl⟩
    · contradiction
  | some budget =>
    cases budget with
    | zero =>
      simp only [before,spend?] at refused
      cases refused
      exact ⟨by simp [Admits,before],_,rfl⟩
    | succ budget =>
      simp only [before,spend?] at refused
      split at refused
      next refuses =>
        cases refused
        exact ⟨by simp [Admits,refuses],_,rfl⟩
      · contradiction

theorem admits_close (host : MemoryHost) (id : WatchId) (n : Nat) : (host.close id).Admits n ↔ host.Admits n := by
  rw [close]
  split
  · rfl
  · rfl

/-- What comes of the attempt to open watches on all of these files: as many watches as there are files, or none if
there is no room for so many. -/
def Fills (host : MemoryHost) (h : Nat) (files : List Path) (handles : List Handle) : Except HostFault Unit → Prop
  | .ok _ => host.Admits files.length ∧ handles.map (·.path) = files ∧ ∀ handle ∈ handles, handle.host = h
  | .error fault => ¬host.Admits files.length ∧ (∃ file ∈ files, ∃ cause, fault = .watch file cause) ∧ handles = []

theorem Fills.congr {a b : MemoryHost} (room : ∀ n, b.Admits n ↔ a.Admits n) {h : Nat} {files : List Path}
    {handles : List Handle} {result : Except HostFault Unit} (fills : b.Fills h files handles result) :
    a.Fills h files handles result := by
  cases result with
  | ok => exact ⟨(room _).mp fills.1,fills.2⟩
  | error fault => exact ⟨fun admits => fills.1 ((room _).mpr admits),fills.2⟩

theorem present_of_list {files : List Path} (listed : host.list path = .ok files) :
    host.directoryExists path = true := by
  rw [list] at listed
  split at listed
  · contradiction
  · split at listed
    next present => exact present
    · contradiction

end MemoryHost

namespace World

variable {w : World MemoryHost} {owner : Subscriber} {h : Nat}

theorem admits_unwatch (n : Nat) : ((w.unwatch owner).host h).Admits n ↔ (w.host h).Admits n := by
  refine unwatch_keeps (P := fun v => (v.host h).Admits n ↔ (w.host h).Admits n) ?_ ?_ Iff.rfl
  · intro v handle same
    refine Iff.trans ?_ same
    rw [close,host_record,host_setHost]
    split
    next here => rw [here]; exact MemoryHost.admits_close _ _ n
    · rfl
  · intro v handles same
    rwa [host_setWatches]

variable (owner h) in
/-- Opening watches fails exactly if there are too many, and says at which file. -/
theorem openAll_outcome (files : List Path) (opened : List Handle) (w : World MemoryHost) :
    match openAll owner h files opened w with
    | (.ok _,_) => (w.host h).Admits files.length
    | (.error fault,_) => ¬(w.host h).Admits files.length ∧ ∃ file ∈ files, ∃ cause, fault = .watch file cause := by
  induction files generalizing opened w with
  | nil => exact .inl rfl
  | cons file files ih =>
    rw [openAll]
    cases opens : Host.watch file owner (w.host h) with
    | error fault =>
      obtain ⟨crowded,named⟩ := MemoryHost.not_admits_of_watch opens files.length
      exact ⟨crowded,file,List.mem_cons_self,named⟩
    | ok made =>
      obtain ⟨id,state⟩ := made
      have room := MemoryHost.admits_of_watch opens files.length
      have rest := ih (opened ++ [⟨h,id,file⟩]) ((w.setHost h state).record (.opened file))
      rw [host_record,host_setHost,if_pos rfl] at rest
      simp only [List.length_cons,room]
      split at rest
      · exact rest
      · obtain ⟨crowded,refused,member,named⟩ := rest
        exact ⟨crowded,refused,List.mem_cons_of_mem _ member,named⟩

variable (owner h) in
theorem rewatch_outcome (files : List Path) (w : World MemoryHost) :
    (w.host h).Fills h files ((w.rewatch owner h files).2.watches owner)
      ((w.rewatch owner h files).1.map fun _ => ()) := by
  have outcome := openAll_outcome owner h files [] (w.unwatch owner)
  have spec := openAll_spec owner h files [] (w.unwatch owner)
  have sets := watches_openAll (w.unwatch owner) owner owner h files []
  rw [watches_unwatch,if_pos rfl] at sets
  simp only [admits_unwatch] at outcome
  rw [rewatch]
  split at outcome
  next handles last made =>
    rw [made] at spec
    obtain ⟨paths,hosts,-⟩ := spec
    simp only [made,watches_setWatches,if_true]
    refine ⟨outcome,by simpa using paths,fun handle member => ?_⟩
    exact (hosts handle member).resolve_left (by simp)
  next fault last made =>
    rw [made] at sets
    simp only [made]
    exact ⟨outcome.1,outcome.2,sets⟩

/-- The session looks into its locales directory if it is asked to. -/
structure Looks (s : Nat) (context : Context) (w : World MemoryHost) : Prop where
  active : (w.session s).phase = .active
  ready : (w.session s).context? = some context
  present : (w.host context.host).directoryExists context.config.localesDirectory = true

/-- The locale files that are there. -/
def listing (context : Context) (w : World MemoryHost) : Except HostFault (List Path) :=
  (w.host context.host).list context.config.localesDirectory

/-- The files that a session watches. -/
def watched (s : Nat) (w : World MemoryHost) : List Path := (w.session s).watches.map (·.path)

end World

/-- Files are the same if their paths have the same components. -/
def SameFiles (a b : List Path) : Prop := a.map Path.components = b.map Path.components

/-- On a host that has room for any number of watches, the next look at the locale files leaves the session with
watches on all of them. -/
def Environment.Recovers (env : Environment MemoryHost) (s : Nat) (context : Context) (v : World MemoryHost) : Prop :=
  ∀ u : World MemoryHost, u.session s = v.session s → (∀ n, (u.host context.host).Admits n) →
    ∀ files, u.listing context = .ok files → ∃ changed last now, env.refresh s u = some (.ok changed,last) ∧
      last.listing context = .ok now ∧ last.watched s = now ∧ ∀ file ∈ files, file ∈ now

/-- The files were listed again after a run. Either they are watched now, and another look changes nothing, or there
was no room for so many watches, and there are none now. -/
inductive Relisted (env : Environment MemoryHost) (s : Nat) (context : Context) (w v : World MemoryHost)
    (files : List Path) : Except HostFault Bool → Prop where
  | renewed (room : (w.host context.host).Admits files.length) (watched : v.watched s = files)
      (hosts : ∀ handle ∈ (v.session s).watches, handle.host = context.host)
      (again : env.refresh s v = some (.ok false,v)) : Relisted env s context w v files (.ok true)
  | refused {file : Path} {cause : String} (crowded : ¬(w.host context.host).Admits files.length)
      (member : file ∈ files) (unwatched : v.watched s = []) (recovers : env.Recovers s context v) :
      Relisted env s context w v files (.error (.watch file cause))

/-- The session has made one run since, in which its options stayed as they were. -/
structure Reran (s : Nat) (context : Context) (w v : World MemoryHost) : Prop where
  looks : v.Looks s context
  idle : (v.session s).inFlight = false
  runs : (v.session s).runs = (w.session s).runs + 1
  history : ∃ (status : Status) (sets : List (List Path)), v.history s =
    w.history s ++ [.requested,.started context.config,.ended status] ++ sets.map .watching

/-- What a look for locale files that came or went comes to. -/
structure Converges (env : Environment MemoryHost) (s : Nat) (w : World MemoryHost) : Prop where
  inactive : (∀ context, ¬w.Looks s context) → env.refresh s w = some (.ok false,w)
  unlisted : ∀ context fault, w.Looks s context → w.listing context = .error fault →
    (w.host context.host).refusesListing = true ∧ env.refresh s w = some (.error fault,w)
  unchanged : ∀ context files, w.Looks s context → w.listing context = .ok files → SameFiles files (w.watched s) →
    env.refresh s w = some (.ok false,w)
  changed : ∀ context files, w.Looks s context → w.listing context = .ok files → ¬SameFiles files (w.watched s) →
    ∃ result v now, env.refresh s w = some (result,v) ∧ v.listing context = .ok now ∧ Reran s context w v ∧
      Relisted env s context w v now result

section Looking

variable {env : Environment MemoryHost} {s : Nat} {w : World MemoryHost} {context : Context} {files : List Path}

theorem refresh_inactive (env : Environment MemoryHost) (blind : ∀ context, ¬w.Looks s context) :
    env.refresh s w = some (.ok false,w) := by
  by_cases active : (w.session s).phase = .active
  · cases ready : (w.session s).context? with
    | none => simp [Environment.refresh,ready]
    | some context =>
      have absent : Host.directoryExists context.config.localesDirectory (w.host context.host) = false := by
        rw [← Bool.not_eq_true]
        intro present
        exact blind context ⟨active,ready,present⟩
      simp [Environment.refresh,ready,absent]
  · simp [Environment.refresh,active]

theorem refresh_unlisted (env : Environment MemoryHost) {fault : HostFault} (looks : w.Looks s context)
    (failed : w.listing context = .error fault) : env.refresh s w = some (.error fault,w) := by
  have present : Host.directoryExists context.config.localesDirectory (w.host context.host) = true := looks.present
  have listed : Host.list context.config.localesDirectory (w.host context.host) = .error fault := failed
  simp [Environment.refresh,looks.active,looks.ready,present,listed]

theorem refresh_unchanged (env : Environment MemoryHost) (looks : w.Looks s context)
    (listed : w.listing context = .ok files) (same : SameFiles files (w.watched s)) :
    env.refresh s w = some (.ok false,w) := by
  have present : Host.directoryExists context.config.localesDirectory (w.host context.host) = true := looks.present
  have found : Host.list context.config.localesDirectory (w.host context.host) = .ok files := listed
  have unchanged : Environment.refresh.samePaths files ((w.session s).watches.map (·.path)) = true :=
    decide_eq_true same
  simp [Environment.refresh,looks.active,looks.ready,present,found,unchanged]

end Looking

/-- A run takes no room for watches. -/
theorem Toolchain.Yields.admits {tools : Toolchain} {config : Config} {before after : MemoryHost} {status : Status}
    (yields : tools.Yields config before after status) (n : Nat) : after.Admits n ↔ before.Admits n := by
  cases status with
  | written report =>
    rw [Writes.rest yields]
    exact MemoryHost.Admits.congr rfl rfl n
  | failed message =>
    obtain ⟨rfl,-⟩ := yields
    rfl

namespace Environment.Quiet

variable {env : Environment MemoryHost} (quiet : env.Quiet) {s : Nat} {w : World MemoryHost} {context : Context}
  {files : List Path}

include quiet

/-- The watches are renewed, if there is room for all of them. -/
theorem refreshWatches_outcome (listed : w.listing context = .ok files) :
    ∃ result v handles, env.refreshWatches s context w = some (result,v) ∧
      v.session s = {w.session s with watches := handles} ∧
      (v.host context.host).store = (w.host context.host).store ∧
      (∃ sets : List (List Path), v.history s = w.history s ++ sets.map .watching) ∧
      (w.host context.host).Fills context.host files handles result := by
  have found : Host.list context.config.localesDirectory (w.host context.host) = .ok files := listed
  simp only [Environment.refreshWatches,found,quiet.log_eq,quiet.emit_eq,Option.bind_eq_bind,Option.bind_some]
  generalize saying : World.say context.logger "watch files" (World.say _ "close file watchers" w) = said
  have same : said.session s = w.session s := by simp [← saying]
  have unwatched : said.host context.host = w.host context.host := by simp [← saying]
  have untold : said.history s = w.history s := by simp [← saying]
  have store := World.store_rewatch said context.host context.host (.session s) files
  have outcome := World.rewatch_outcome (.session s) context.host files said
  have proceeds := World.proceeds_rewatch (s := s) (w := said) context.host files
  obtain ⟨handles,own⟩ := World.session_of_rewatch said context.host (.session s) files s
  rw [same] at own
  rw [unwatched] at store outcome
  cases rewatched : said.rewatch (.session s) context.host files with
  | mk result u =>
    rw [rewatched] at own store outcome proceeds
    have watches : u.watches (.session s) = handles := by
      change (u.session s).watches = handles
      rw [own]
    cases result with
    | error fault =>
      have told : ∃ sets : List (List Path), u.history s = w.history s ++ sets.map .watching :=
        ⟨[[]],untold ▸ proceeds.1.history⟩
      exact ⟨.error fault,u,handles,rfl,own,store,told,watches ▸ outcome⟩
    | ok refreshed =>
      obtain ⟨set,proceeds⟩ := proceeds
      have told : ∃ sets : List (List Path), u.history s = w.history s ++ sets.map .watching :=
        ⟨[[],set],untold ▸ proceeds.history⟩
      exact ⟨.ok (),_,handles,rfl,by simpa using own,by simpa using store,by simpa using told,watches ▸ outcome⟩

/-- A look that finds other files than those watched takes one run, and then an attempt to watch the files that are
there by now. -/
theorem refresh_changed (idle : (w.session s).inFlight = false) (looks : w.Looks s context)
    (listed : w.listing context = .ok files) (differ : ¬SameFiles files (w.watched s)) :
    ∃ result v now, env.refresh s w = some (result.map fun _ => true,v) ∧ v.listing context = .ok now ∧
      (∀ file ∈ files, file ∈ now) ∧ Reran s context w v ∧
      (w.host context.host).Fills context.host now (v.session s).watches result := by
  have log := quiet.log_eq context.logger "locale files changed" w
  generalize noting : w.say context.logger "locale files changed" = noted at log
  have same : noted.session s = w.session s := by simp [← noting]
  have untold : noted.host context.host = w.host context.host := by simp [← noting]
  have begun : (noted.session s).inFlight = false := same ▸ idle
  have ready : (noted.session s).context? = some context := same ▸ looks.ready
  obtain ⟨made,status,regenerate,ran⟩ := quiet.regenerate_ran begun ready
  obtain ⟨_,_,again,proceeds⟩ := quiet.regenerate begun ready
  cases regenerate.symm.trans again
  obtain ⟨calls,own⟩ := ran.own
  rw [same] at own
  have before : noted.listing context = .ok files := by rw [World.listing,untold]; exact listed
  obtain ⟨now,relisted,kept⟩ := (proceeds.hosts context.host).list before
  obtain ⟨result,v,handles,watch,watching,store,⟨sets,told⟩,fills⟩ := quiet.refreshWatches_outcome (s := s) relisted
  rw [own] at watching
  have final : v.listing context = .ok now := by
    rw [World.listing,← MemoryHost.list_store,store,MemoryHost.list_store]
    exact relisted
  have present : Host.directoryExists context.config.localesDirectory (w.host context.host) = true := looks.present
  have found : Host.list context.config.localesDirectory (w.host context.host) = .ok files := listed
  have changed : Environment.refresh.samePaths files ((w.session s).watches.map (·.path)) = false :=
    decide_eq_false differ
  have room : ∀ n, (made.host context.host).Admits n ↔ (w.host context.host).Admits n := by
    rw [← untold]
    exact ran.yields.admits
  refine ⟨result,v,now,?_,final,kept,⟨⟨?_,?_,MemoryHost.present_of_list final⟩,?_,?_,status,sets,?_⟩,?_⟩
  · cases result <;>
      simp [Environment.refresh,looks.active,looks.ready,present,found,changed,log,regenerate,watch,Except.map]
  · rw [watching]; exact looks.active
  · rw [watching]; exact looks.ready
  · rw [watching]; exact idle
  · rw [watching]
  · rw [told,ran.own_history]
    simp [← noting]
  · rw [watching]
    exact fills.congr room

/-- Where any number of watches can be opened, a look leaves watches on all files that are there. -/
theorem recovers {v : World MemoryHost} (looks : v.Looks s context) (idle : (v.session s).inFlight = false)
    (unwatched : v.watched s = []) : env.Recovers s context v := by
  intro u same room files listed
  have sees : u.Looks s context :=
    ⟨same ▸ looks.active,same ▸ looks.ready,MemoryHost.present_of_list listed⟩
  have bare : u.watched s = [] := by rw [World.watched,same]; exact unwatched
  by_cases none : files = []
  · have current : SameFiles files (u.watched s) := by rw [none,bare]; rfl
    exact ⟨false,u,files,refresh_unchanged env sees listed current,listed,bare.trans none.symm,fun _ => id⟩
  · have differ : ¬SameFiles files (u.watched s) := by
      rw [bare]
      intro current
      exact none (List.map_eq_nil_iff.mp current)
    obtain ⟨result,last,now,refresh,final,kept,-,fills⟩ :=
      quiet.refresh_changed (same ▸ idle) sees listed differ
    cases result with
    | error fault => exact absurd (room now.length) fills.1
    | ok => exact ⟨true,last,now,refresh,final,fills.2.1,kept⟩

end Environment.Quiet

/-- Looking for locale files does nothing unless there are others than those watched. If there are, one run is made,
and from then on exactly the files are watched that are there on return, so that another look does nothing. If a
watch is refused, none is left, and a look once there is room leaves none unwatched. -/
theorem refresh_converges {env : Environment MemoryHost} {w : World MemoryHost} (quiet : env.Quiet)
    (reached : Reachable w) (s : Nat) : Converges env s w where
  inactive := refresh_inactive env
  unlisted context fault looks failed :=
    ⟨MemoryHost.list_refused looks.present failed,refresh_unlisted env looks failed⟩
  unchanged context files looks := refresh_unchanged env looks
  changed context files looks listed differ := by
    obtain ⟨result,v,now,refresh,final,-,reran,fills⟩ :=
      quiet.refresh_changed (reached.idle s) looks listed differ
    refine ⟨_,v,now,refresh,final,reran,?_⟩
    cases result with
    | ok =>
      obtain ⟨room,watched,hosts⟩ := fills
      have current : SameFiles now (v.watched s) := congrArg (List.map Path.components) watched.symm
      exact .renewed room watched hosts (refresh_unchanged env reran.looks final current)
    | error fault =>
      obtain ⟨crowded,⟨file,member,cause,rfl⟩,none⟩ := fills
      have unwatched : v.watched s = [] := by rw [World.watched,none]; rfl
      exact .refused crowded member unwatched (quiet.recovers reran.looks reran.idle unwatched)

/-- A session that watches nothing yet has one look at its one locale file, and another one. -/
theorem manned_refreshes : ∃ v now, Environment.stamping.refresh 0 .manned = some (.ok true,v) ∧
    v.listing plainContext = .ok now ∧ v.watched 0 = now ∧ (v.session 0).runs = 1 ∧
    Environment.stamping.refresh 0 v = some (.ok false,v) := by
  have looks : World.manned.Looks 0 plainContext := ⟨rfl,rfl,by decide +kernel⟩
  have listed : World.manned.listing plainContext = .ok [⟨"/p/locales/en.yaml"⟩] := by decide +kernel
  have differ : ¬SameFiles [⟨"/p/locales/en.yaml"⟩] (World.manned.watched 0) := by
    intro same
    cases same
  have converges := refresh_converges Environment.stamping_quiet manned_reachable 0
  obtain ⟨result,v,now,refresh,final,reran,relisted⟩ := converges.changed _ _ looks listed differ
  cases relisted with
  | renewed room watched hosts again => exact ⟨v,now,refresh,final,watched,reran.runs,again⟩
  | refused crowded => exact absurd (.inr ⟨rfl,fun _ none => nomatch none⟩) crowded

end Phrasebook
