import Phrasebook.Proofs.Session.Dormancy
import Phrasebook.Proofs.Session.Freshness

/-! A session by itself. It lies over one resolver at most, which is heard of once, and until it has adopted
options it is as if it were not there: `session_alone`. -/
namespace Phrasebook

/-- Commands for one session, and for none: to resolve names, and to change files other than by writing them. -/
def Command.Operates (s : Nat) : Command → Prop
  | .create t _ _ _ _ | .configure t _ | .regenerate t | .refresh t | .dispose t | .renewSink t | .drop t => t = s
  | .host _ command => ∀ path content, command ≠ .write path content
  | .edit _ _ _ | .notify _ _ | .resolve _ _ | .watched _ | .hookState _ => True
  | _ => False

section Operating

variable {s t : Nat} {command : Command}

/-- Nobody else is ruled. -/
theorem Command.Operates.rules (operates : command.Operates s) (rules : command.Rules t) : t = s := by
  cases command <;> first | exact rules.symm.trans operates | exact rules.elim

theorem Command.Operates.unrecorded (operates : command.Operates s) : ¬command.Records := by
  cases command <;> first | exact id | exact operates.elim

end Operating

theorem MemoryHost.perform_unwritten {host : MemoryHost} {command : HostCommand}
    (plain : ∀ path content, command ≠ .write path content) : host.Unwritten (host.perform command).2 := by
  refine ⟨perform_sameWatches host command,?_⟩
  cases command with
  | write path content => exact absurd rfl (plain path content)
  | list path =>
    simp only [perform]
    split <;> rfl
  | _ => rfl

namespace World

/-- Options were adopted at some time. -/
def HadOptions (s : Nat) (w : World MemoryHost) : Prop := ∃ config, .adopted config ∈ w.history s

/-- The session lies over the resolver of this hook and over no other, once, if over any at all. Sinks have heard
of it no more often than that, and just as often if the session has one. -/
structure Covers (s : Nat) (heard : Bool) (cover : Option Nat) (w : World MemoryHost) : Prop where
  layers : ∀ h, (w.hooks.get h).layers = if cover = some h then [.session s] else []
  hookings : w.hookings ≤ cover.toList.length
  heard : heard = true → w.hookings = cover.toList.length

/-- Only this session has laid itself over a resolver or watches files. -/
structure Lone (s : Nat) (heard : Bool) (w : World MemoryHost) : Prop where
  watches : ∀ owner, owner ≠ .session s → w.watches owner = []
  sink : heard = true → (w.session s).sink.isSome
  cover : ∃ cover, w.Covers s heard cover
  installed : (w.session s).installed = true ↔ w.HadOptions s

/-- Nothing has come of the session since the start. -/
structure Inert (s : Nat) (w start : World MemoryHost) : Prop where
  phase : (w.session s).phase = .uninitialized ∨ (w.session s).phase = .disposed
  runs : (w.session s).runs = 0
  last : (w.session s).last = none
  watches : (w.session s).watches = []
  hooks : w.hooks = start.hooks
  hosts : ∀ h, (start.host h).Unwritten (w.host h)

theorem Standing.adopted_iff {s : Nat} {w : World MemoryHost} (standing : w.Standing s) :
    (w.session s).config.isSome ↔ (w.session s).phase = .validated ∨ (w.session s).phase = .active := by
  refine ⟨fun adopted => ?_,standing.adopted⟩
  cases phase : (w.session s).phase with
  | uninitialized => simp [(standing.uninitialized phase).1] at adopted
  | disposed => simp [standing.disposed phase] at adopted
  | validated => exact .inl rfl
  | active => exact .inr rfl

section Lone

variable {s : Nat} {heard : Bool} {cover : Option Nat} {command : Command} {start a b w : World MemoryHost}

theorem Covers.unhooked (covers : a.Covers s heard cover) (hooks : b.hooks = a.hooks)
    (hookings : b.hookings = a.hookings) : b.Covers s heard cover :=
  ⟨hooks ▸ covers.layers,hookings ▸ covers.hookings,hookings ▸ covers.heard⟩

/-- A session that has not tried yet lies over nothing. -/
theorem Covers.hooked (covers : a.Covers s heard cover) (standing : a.Standing s)
    (sink : heard = true → (a.session s).sink.isSome) (hooked : Hooked s a b) :
    ∃ cover, b.Covers s heard cover := by
  have bare : cover = none := by
    refine Option.eq_none_iff_forall_ne_some.mpr fun h lies => ?_
    have laid : a.Intercepts s := ⟨h,by simp [covers.layers h,lies]⟩
    exact Bool.false_ne_true (hooked.first.symm.trans (standing.installed laid))
  subst bare
  have unheard : a.hookings = 0 := Nat.le_zero.mp covers.hookings
  obtain ⟨hook,wrapped,-,wrap,hooks⟩ := hooked.laid
  obtain ⟨-,rfl⟩ := Hook.wrap?_eq_some wrap
  refine ⟨some hook,fun h => ?_,?_,fun heard => ?_⟩
  · rw [hooks,Slots.get_put]
    simp only [Option.some.injEq]
    split
    · simp [covers.layers]
    · simp [covers.layers]
  · rw [hooked.hookings,unheard]
    split <;> simp
  · rw [hooked.hookings,unheard,if_pos (sink heard)]
    rfl

theorem Lone.unwatched (lone : a.Lone s heard) (spared : ∀ t, t ≠ s → b.session t = a.session t)
    (recorders : b.recorders = a.recorders) (owner : Subscriber) (other : owner ≠ .session s) :
    b.watches owner = [] := by
  rw [← lone.watches owner other]
  cases owner with
  | session t => exact congrArg Session.watches (spared t fun same => other (same ▸ rfl))
  | recorder r => exact congrArg (Slots.get · r) recorders

/-- What befalls the session alone leaves it alone, as long as it adopts nothing and is laid over nothing. -/
theorem Lone.keep (lone : a.Lone s heard) (spared : ∀ t, t ≠ s → b.session t = a.session t)
    (recorders : b.recorders = a.recorders) (hooks : b.hooks = a.hooks) (hookings : b.hookings = a.hookings)
    (sink : (a.session s).sink.isSome → (b.session s).sink.isSome)
    (installed : (b.session s).installed = (a.session s).installed)
    (unadopted : ∃ news, b.history s = a.history s ++ news ∧ ∀ config, .adopted config ∉ news) : b.Lone s heard where
  watches := lone.unwatched spared recorders
  sink heard := sink (lone.sink heard)
  cover := lone.cover.imp fun _ covers => covers.unhooked hooks hookings
  installed := by
    obtain ⟨news,history,none⟩ := unadopted
    rw [installed,lone.installed]
    simp [HadOptions,history,none]

theorem Lone.adopts (lone : a.Lone s heard) (standing : a.Standing s) (adopted : Adopted s a b) : b.Lone s heard where
  watches := lone.unwatched adopted.spared adopted.recorders
  sink heard := by
    rw [adopted.sink]
    exact lone.sink heard
  cover := by
    obtain ⟨cover,covers⟩ := lone.cover
    rcases adopted.outcome with unhooked | hooked
    · exact ⟨cover,covers.unhooked unhooked.hooks unhooked.hookings⟩
    · exact covers.hooked standing lone.sink hooked
  installed := by
    obtain ⟨news,config,history,adopts⟩ := adopted.adopted
    exact iff_of_true adopted.installed ⟨config,by simp [history,adopts]⟩

/-- Nothing sets another session to work. -/
theorem Lone.rouses {t : Nat} (lone : w.Lone s heard) (accounted : w.Accounted) (operates : command.Operates s)
    (rouses : command.Rouses w t) : t = s := by
  have watching {h : Nat} (watched : ∃ watch ∈ (w.host h).watches, watch.subscriber = .session t) : t = s := by
    obtain ⟨watch,member,subscriber⟩ := watched
    by_contra other
    have owned := Accounts.mem accounted member
    rw [subscriber,lone.watches _ fun same => other (Subscriber.session.inj same)] at owned
    cases owned
  cases command with
  | regenerate | refresh => exact rouses.symm.trans operates
  | resolve hook query =>
    obtain ⟨cover,covers⟩ := lone.cover
    have laid : .session t ∈ (w.hooks.get hook).layers := rouses
    rw [covers.layers] at laid
    split at laid
    · simpa using laid
    · cases laid
  | edit => exact watching rouses
  | notify => exact watching rouses
  | _ => exact rouses.elim

theorem Inert.dormant (inert : w.Inert s start) (blank : start.Blank) (orderly : w.Orderly) : w.Dormant s where
  bare := inert.phase.elim (fun new => ((orderly.standing s).uninitialized new).1) (orderly.standing s).disposed
  idle := orderly.idle s
  unwatched := inert.watches
  hosts h := (inert.hosts h).watches.trans (blank.hosts h).1
  layers h := .inl (inert.hooks ▸ blank.layers h)

theorem Inert.sleeps {edited : Nat → Path → Prop} (inert : a.Inert s start) (sleeps : Sleeps s edited a b) :
    b.Inert s start := by
  obtain ⟨requested,own⟩ := sleeps.own
  exact ⟨by simp [own,inert.phase],by simp [own,inert.runs],by simp [own,inert.last],by simp [own,inert.watches],
    sleeps.hooks.trans inert.hooks,fun h => (inert.hosts h).trans (sleeps.hosts h)⟩

/-- The session sleeps through every command that does not rule it. -/
theorem Dormant.operates {tools : Toolchain} {reply : Reply} (dormant : a.Dormant s)
    (inactive : (a.session s).phase ≠ .active) (operates : command.Operates s) (ordinary : command.Ordinary)
    (run : (Environment.silent tools).perform command a = some (reply,b)) : Sleeps s (fun _ _ => True) a b := by
  have stirred (stirs : command.Stirs s) : Sleeps s (fun _ _ => True) a b := by
    obtain ⟨v,slept,sleeps⟩ := dormant.perform (.silent tools) stirs inactive
    cases slept.symm.trans run
    exact sleeps.mono fun _ _ _ => trivial
  cases command with
  | regenerate | refresh => exact stirred operates
  | resolve | edit | notify => exact stirred trivial
  | host h command =>
    cases run
    exact .setHost (MemoryHost.perform_unwritten operates) fun _ edited => absurd trivial edited
  | watched | hookState => cases run; exact .refl _
  | create t | configure t | dispose t | drop t => exact absurd rfl (ordinary.unruly t)
  | renewSink t => exact absurd rfl (ordinary.sink t)
  | _ => exact operates.elim

end Lone
end World

section Alone

variable {tools : Toolchain} {s : Nat} {heard : Bool} {command : Command} {reply : Reply}
  {start w v : World MemoryHost}

theorem World.Lone.perform (lone : w.Lone s heard) (orderly : w.Orderly) (accounted : w.Accounted)
    (operates : command.Operates s) (run : (Environment.silent tools).perform command w = some (reply,v)) :
    v.Lone s heard := by
  have unadopted (spares : ¬command.Adopts s) : ∃ news, v.history s = w.history s ++ news ∧
      ∀ config, .adopted config ∉ news := by
    obtain ⟨news,history,-,none⟩ := (silent_gains run s).unadopted (by rintro _ rfl; exact spares)
    exact ⟨news,history,none⟩
  cases (Environment.silent_quiet tools).deed orderly.handed run with
  | works ordinary works =>
    exact lone.keep (fun t other => works.spared t fun rouses => other (lone.rouses accounted operates rouses))
      works.recorders works.hooks works.hookings (fun sink => by rwa [works.same (·.sink) fun _ => rfl])
      (works.same (·.installed) (fun _ => rfl) s) (unadopted fun adopts => ordinary.unruly s adopts.rules)
  | left same => exact same ▸ lone
  | renews t renews same =>
    subst renews same
    cases operates
    refine lone.keep (fun t other => ?_) rfl rfl rfl (fun _ => ?_) ?_ ⟨[],by simp,by simp⟩
    · rw [session_renewSink,if_neg (Ne.symm other)]
    · simp
    · simp
  | records records => exact absurd records operates.unrecorded
  | spurns t adopts spurns =>
    obtain rfl : t = s := operates.rules adopts.rules
    obtain ⟨_,_,_,own,-⟩ := spurns.own
    exact lone.keep spurns.spared spurns.recorders spurns.hooks spurns.hookings (by simp [own]) (by rw [own])
      ⟨[],by simp [spurns.histories],by simp⟩
  | adopts t adopts live adopted =>
    obtain rfl : t = s := operates.rules adopts.rules
    exact lone.adopts (orderly.standing t) adopted
  | retires t ends retired =>
    obtain rfl : t = s := operates.rules ends.rules
    obtain ⟨_,_,_,own⟩ := retired.own
    exact lone.keep retired.spared retired.recorders retired.hooks retired.hookings (by simp [own]) (by rw [own])
      (unadopted (ends.not_adopts t))

/-- Options that are turned down, or taken away before there are any, leave the session inert. -/
theorem World.Inert.perform (inert : w.Inert s start) (blank : start.Blank) (orderly : w.Orderly)
    (operates : command.Operates s) (run : (Environment.silent tools).perform command w = some (reply,v))
    (unadopted : ¬v.HadOptions s) : v.Inert s start := by
  cases (Environment.silent_quiet tools).deed orderly.handed run with
  | works ordinary works =>
    have inactive : (w.session s).phase ≠ .active := by
      rcases inert.phase with phase | phase <;> simp [phase]
    exact inert.sleeps ((inert.dormant blank orderly).operates inactive operates ordinary run)
  | left same => exact same ▸ inert
  | renews t renews same =>
    subst renews same
    cases operates
    exact ⟨by simpa using inert.phase,by simpa using inert.runs,by simpa using inert.last,by simpa using inert.watches,
      inert.hooks,inert.hosts⟩
  | records records => exact absurd records operates.unrecorded
  | spurns t adopts spurns =>
    obtain rfl : t = s := operates.rules adopts.rules
    obtain ⟨_,_,_,own,-⟩ := spurns.own
    exact ⟨by simp [own,inert.phase],by simp [own,inert.runs],by simp [own,inert.last],by simp [own,inert.watches],
      spurns.hooks.trans inert.hooks,fun h => spurns.hosts h ▸ inert.hosts h⟩
  | adopts t adopts live adopted =>
    obtain rfl : t = s := operates.rules adopts.rules
    obtain ⟨news,config,history,adopts⟩ := adopted.adopted
    exact absurd ⟨config,by simp [history,adopts]⟩ unadopted
  | retires t ends retired =>
    obtain rfl : t = s := operates.rules ends.rules
    obtain ⟨_,_,_,own⟩ := retired.own
    obtain ⟨watches,hosts⟩ := retired.still inert.watches
    exact ⟨.inr (by rw [own]),by simp [own,inert.runs],by simp [own,inert.last],watches,
      retired.hooks.trans inert.hooks,fun h => hosts h ▸ inert.hosts h⟩

theorem World.Blank.lone (blank : start.Blank) : start.Lone s (start.session s).sink.isSome where
  watches owner other := by
    cases owner with
    | session t =>
      rw [World.watches,blank.sessions t]
    | recorder r => exact blank.recorders r
  sink := id
  cover := by
    have silent : start.hookings = 0 := by simp [World.hookings,World.emissions,blank.trace]
    exact ⟨none,fun h => by simp [blank.layers],by simp [silent],fun _ => by simp [silent]⟩
  installed := by
    rw [blank.sessions s]
    simp [World.HadOptions,World.history,blank.trace]

theorem World.Blank.inert (blank : start.Blank) : start.Inert s start := by
  refine ⟨.inl ?_,?_,?_,?_,rfl,fun h => .refl _⟩ <;> rw [blank.sessions s]

/-- The milestones of a session are for good. -/
theorem World.HadOptions.perform (had : w.HadOptions s)
    (run : (Environment.silent tools).perform command w = some (reply,v)) : v.HadOptions s := by
  obtain ⟨config,adopts⟩ := had
  obtain ⟨news,history,-⟩ := silent_gains run s
  exact ⟨config,by simp [history,adopts]⟩

theorem Passes.alone (passes : Passes (Command.Operates s) start w) (blank : start.Blank) :
    w.Lone s (start.session s).sink.isSome ∧ (¬w.HadOptions s → w.Inert s start) := by
  induction passes with
  | refl => exact ⟨blank.lone,fun _ => blank.inert⟩
  | perform before operates run ih =>
    obtain ⟨lone,inert⟩ := ih
    have orderly := before.orderly blank
    have accounted := Reachable.accounted ⟨_,blank.toFresh,before.leads⟩
    refine ⟨lone.perform orderly accounted operates run,fun unadopted => ?_⟩
    exact (inert fun had => unadopted (had.perform run)).perform blank orderly operates run unadopted

/-- Whatever commands one session is given, it lies over one resolver at most, once, and its sink has heard of
that once. It has options while its phase says so, and has tried to intercept resolution as soon as it has ever had
any. Before that nothing comes of it, and all resolutions are answered as if it were not there. -/
theorem session_alone (blank : start.Blank) (passes : Passes (Command.Operates s) start w) :
    (∃ cover, w.Covers s (start.session s).sink.isSome cover) ∧
    ((w.session s).config.isSome ↔ (w.session s).phase = .validated ∨ (w.session s).phase = .active) ∧
    ((w.session s).installed = true ↔ w.HadOptions s) ∧
    (¬w.HadOptions s → w.Inert s start ∧ ∀ (env : Environment MemoryHost) (hook : Nat) (query : Query),
      ∃ v, env.resolve hook query w = some ((start.hooks.get hook).passed query,v)) := by
  obtain ⟨lone,inert⟩ := passes.alone blank
  have orderly := passes.orderly blank
  refine ⟨lone.cover,(orderly.standing s).adopted_iff,lone.installed,fun unadopted => ⟨inert unadopted,?_⟩⟩
  intro env hook query
  obtain ⟨v,resolved,-⟩ : ∃ v, _ ∧ World.Sleeps s (fun _ _ => False) w v :=
    ((inert unadopted).dormant blank orderly).resolve env hook query
  exact ⟨v,by rw [resolved,(inert unadopted).hooks]⟩

end Alone

theorem World.vacant_blank : World.vacant.Blank where
  toFresh := vacant_fresh
  layers h := by cases h <;> rfl
  trace := rfl

/-- A session has been handed options that do not pass. -/
def World.spurned : World MemoryHost :=
  (((Environment.silent Environment.stamping.toolchain).perform (.create 0 (some 0) 0 0 .null) .vacant).map
    (·.2)).getD .vacant

/-- Options that do not pass leave a session inert, and those that do lay it over the resolver. -/
theorem spurned_alone : Passes (Command.Operates 0) .vacant .spurned ∧ Passes (Command.Operates 0) .vacant .manned ∧
    World.spurned.Inert 0 .vacant ∧ (World.spurned.session 0).hook = some 0 ∧
    (∃ v, Environment.stamping.resolve 0 mainQuery .spurned = some (.ok [none],v)) ∧
    World.manned.Covers 0 true (some 0) ∧ (World.manned.session 0).installed = true := by
  have spurn : (Environment.silent Environment.stamping.toolchain).perform
      (.create 0 (some 0) 0 0 .null) .vacant = some (.service 0,.spurned) := by rfl
  have adopt : (Environment.silent Environment.stamping.toolchain).perform
      (.create 0 (some 0) 0 0 plainOptions) .vacant = some (.service 0,.manned) := by rfl
  have spurned : Passes (Command.Operates 0) .vacant .spurned := .perform (.refl _) (by rfl) spurn
  have manned : Passes (Command.Operates 0) .vacant .manned := .perform (.refl _) (by rfl) adopt
  obtain ⟨-,-,-,before⟩ := session_alone World.vacant_blank spurned
  obtain ⟨⟨cover,covers⟩,-,installed,-⟩ := session_alone World.vacant_blank manned
  have unadopted : ¬World.spurned.HadOptions 0 := by
    rintro ⟨config,adopted⟩
    have nothing : World.spurned.history 0 = [] := by rfl
    rw [nothing] at adopted
    cases adopted
  obtain ⟨inert,answers⟩ := before unadopted
  have lies : cover = some 0 := by
    by_contra other
    have laid := covers.layers 0
    rw [if_neg other] at laid
    cases laid
  obtain ⟨v,answered⟩ := answers .stamping 0 mainQuery
  exact ⟨spurned,manned,inert,rfl,⟨v,answered⟩,lies ▸ covers,
    installed.mpr ⟨plainContext.config,by decide +kernel⟩⟩

end Phrasebook
