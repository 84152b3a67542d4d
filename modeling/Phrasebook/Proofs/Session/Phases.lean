import Phrasebook.Proofs.Host.Files
import Phrasebook.Proofs.Session.Disposal
import Phrasebook.Proofs.Session.Quiet

/-! What the phase of a session says about it. It is active just while it has options and intercepts
resolution, except that options handed to it once more, as if it were new, hide the interception for the
rest of its life: `truthful_iff`. -/
namespace Phrasebook

/-- Commands that give a session options or take them away. -/
def Command.Rules (s : Nat) : Command → Prop
  | .create t _ _ _ _ | .configure t _ | .dispose t | .drop t => t = s
  | _ => False

/-- Commands that put an end to a session. -/
def Command.Ends (s : Nat) : Command → Prop
  | .dispose t | .drop t => t = s
  | _ => False

/-- A command that hands acceptable options to a session as if it were new. -/
def Command.Recreates (s : Nat) (w : World MemoryHost) : Command → Prop
  | .create t platform _ _ options => t = s ∧ ∃ config, Config.check options (platform.map w.host) = .ok config
  | _ => False

namespace World

/-- The session lies over the resolver of some hook. -/
def Intercepts (s : Nat) (w : World MemoryHost) : Prop := ∃ hook, .session s ∈ (w.hooks.get hook).layers

@[simp] theorem intercepts_modify (w : World MemoryHost) (s t : Nat) (f : Session → Session) :
    (w.modify t f).Intercepts s ↔ w.Intercepts s := .rfl

@[simp] theorem intercepts_reach (w : World MemoryHost) (s t : Nat) (milestone : Milestone)
    (f : Session → Session) : (w.reach t milestone f).Intercepts s ↔ w.Intercepts s := .rfl

/-- The session intercepts resolution, but its phase denies it. -/
def Masked (s : Nat) (w : World MemoryHost) : Prop := (w.session s).phase = .validated ∧ w.Intercepts s

/-- What phase, options and interception have to do with each other. -/
structure Standing (s : Nat) (w : World MemoryHost) : Prop where
  installed : w.Intercepts s → (w.session s).installed = true
  uninitialized : (w.session s).phase = .uninitialized →
    (w.session s).config = none ∧ (w.session s).installed = false
  adopted : (w.session s).phase = .validated ∨ (w.session s).phase = .active → (w.session s).config.isSome
  active : (w.session s).phase = .active → w.Intercepts s
  disposed : (w.session s).phase = .disposed → (w.session s).config = none
  dropped : (w.session s).dropped = true → (w.session s).phase = .disposed

end World

/-- Nothing that bears on the phase of a session has changed. -/
structure Unruled (s : Nat) (a b : World MemoryHost) : Prop where
  phase : (b.session s).phase = (a.session s).phase
  config : (b.session s).config = (a.session s).config
  installed : (b.session s).installed = (a.session s).installed
  dropped : (b.session s).dropped = (a.session s).dropped
  intercepts : b.Intercepts s ↔ a.Intercepts s

namespace Unruled

variable {s t : Nat} {a b c w w' : World MemoryHost}

theorem refl (w : World MemoryHost) : Unruled s w w := ⟨rfl,rfl,rfl,rfl,.rfl⟩

theorem trans (first : Unruled s a b) (next : Unruled s b c) : Unruled s a c where
  phase := next.phase.trans first.phase
  config := next.config.trans first.config
  installed := next.installed.trans first.installed
  dropped := next.dropped.trans first.dropped
  intercepts := next.intercepts.trans first.intercepts

theorem modify {f : Session → Session} (keeps : t = s → (f (w.session s)).phase = (w.session s).phase ∧
    (f (w.session s)).config = (w.session s).config ∧ (f (w.session s)).installed = (w.session s).installed ∧
    (f (w.session s)).dropped = (w.session s).dropped) : Unruled s w (w.modify t f) := by
  by_cases eq : t = s
  · obtain ⟨phase,config,installed,dropped⟩ := keeps eq
    refine ⟨?_,?_,?_,?_,.rfl⟩ <;> simpa [eq]
  · refine ⟨?_,?_,?_,?_,.rfl⟩ <;> simp [eq]

theorem reach {milestone : Milestone} {f : Session → Session}
    (keeps : t = s → (f (w.session s)).phase = (w.session s).phase ∧
      (f (w.session s)).config = (w.session s).config ∧ (f (w.session s)).installed = (w.session s).installed ∧
      (f (w.session s)).dropped = (w.session s).dropped) : Unruled s w (w.reach t milestone f) :=
  (modify keeps).trans ⟨rfl,rfl,rfl,rfl,.rfl⟩

/-- Watches have no part in it. -/
theorem watched (hooks : b.hooks = a.hooks)
    (session : ∃ handles, b.session s = {a.session s with watches := handles}) : Unruled s a b := by
  obtain ⟨handles,same⟩ := session
  exact ⟨by rw [same],by rw [same],by rw [same],by rw [same],by rw [World.Intercepts,World.Intercepts,hooks]⟩

theorem unwatch (owner : Subscriber) : Unruled s w (w.unwatch owner) :=
  watched (w.hooks_unwatch owner) (w.session_of_unwatch owner s)

theorem release (t : Nat) : Unruled s w (w.release t) := by
  unfold World.release
  split
  · exact unwatch _
  · exact refl w

theorem rewatch (owner : Subscriber) (h : Nat) (files : List Path) : Unruled s w (w.rewatch owner h files).2 :=
  watched (w.hooks_rewatch h owner files) (w.session_of_rewatch h owner files s)

/-- Another session that is laid over a resolver hides none of those below it. -/
theorem wrap {hook : Nat} {wrapped : Hook} (other : t ≠ s)
    (laid : (w.hooks.get hook).wrap? (.session t) = some wrapped) : Unruled s w (w.setHook hook wrapped) := by
  refine ⟨rfl,rfl,rfl,rfl,exists_congr fun i => ?_⟩
  rw [World.setHook,Slots.get_put]
  split
  next here =>
    subst here
    rw [Hook.wrap?] at laid
    split at laid
    · cases laid
      simp [Ne.symm other]
    · contradiction
  · rfl

theorem step (step : Step (fun command => ¬command.Rules s) a b c) : Unruled s b c := by
  have spared {t : Nat} (adopts : ∃ command : Command, ¬command.Rules s ∧ command.Adopts t) : t ≠ s := by
    rintro rfl
    obtain ⟨command,unruly,adopts⟩ := adopts
    cases command <;> first | exact unruly adopts | exact adopts
  cases step with
  | record | host | hold | leave => exact ⟨rfl,rfl,rfl,rfl,.rfl⟩
  | generate | lock | unlock | heed => exact modify fun _ => ⟨rfl,rfl,rfl,rfl⟩
  | request | start | finish => exact reach fun _ => ⟨rfl,rfl,rfl,rfl⟩
  | renewSink t =>
    refine ⟨?_,?_,?_,?_,.rfl⟩ <;> rw [World.session_renewSink] <;> split <;> rfl
  | introduce t platform hook logger options creates => exact modify fun same => absurd same creates
  | create t platform hook logger options config creates => exact reach fun same => absurd same creates
  | configure t options config configures => exact reach fun same => absurd same configures
  | install t ready first adopts => exact modify fun same => absurd same (spared adopts)
  | wrap t hook wrapped ready first laid adopts => exact wrap (spared adopts) laid
  | activate t adopts => exact reach fun same => absurd same (spared adopts)
  | rewatch | rewatchRecorder => exact rewatch _ _ _
  | release t => exact release t
  | unwatchRecorder => exact unwatch _
  | dispose t disposes =>
    have other : t ≠ s := disposes.elim id id
    have retired : Unruled s b (b.retire t) := reach fun same => absurd same other
    exact retired.trans (unwatch _)
  | drop t drops => exact modify fun same => absurd same drops

end Unruled

theorem unruled_lasting (s : Nat) : Lasting (fun command => ¬command.Rules s) (Unruled s) where
  refl := .refl
  trans := .trans
  step before step := before.trans (.step step)

namespace World.Standing

variable {s : Nat} {a b w w' : World MemoryHost}

theorem unruled (standing : a.Standing s) (same : Unruled s a b) : b.Standing s := by
  obtain ⟨phase,config,installed,dropped,intercepts⟩ := same
  refine ⟨?_,?_,?_,?_,?_,?_⟩ <;> simp only [phase,config,installed,dropped,intercepts]
  · exact standing.installed
  · exact standing.uninitialized
  · exact standing.adopted
  · exact standing.active
  · exact standing.disposed
  · exact standing.dropped

/-- While a session lives, its phase knows of the interception unless it is hidden. -/
theorem intercepts_iff (standing : w.Standing s) (live : (w.session s).phase ≠ .disposed) :
    w.Intercepts s ↔ w.Masked s ∨ (w.session s).phase = .active := by
  constructor
  · intro laid
    have installed := standing.installed laid
    cases phase : (w.session s).phase with
    | uninitialized => simp [(standing.uninitialized phase).2] at installed
    | validated => exact .inl ⟨phase,laid⟩
    | active => exact .inr rfl
    | disposed => exact absurd phase live
  · exact fun either => either.elim And.right standing.active

end World.Standing

theorem Unruled.masked {s : Nat} {a b : World MemoryHost} (same : Unruled s a b) : b.Masked s ↔ a.Masked s := by
  rw [World.Masked,same.phase,same.intercepts,World.Masked]

/-- A command is carried out, and meanwhile nobody gives options to the session or takes them away. -/
def Turn (s : Nat) (command : Command) (w w' : World MemoryHost) : Prop :=
  ∃ tools behaviour depth reply,
    (∀ entry w, (behaviour entry w : Script).Issues fun command => ¬command.Rules s) ∧
    (Environment.scripted tools behaviour depth).perform command w = some (reply,w')

theorem World.intercepts_wrap {s hook : Nat} {w : World MemoryHost} {wrapped : Hook}
    (laid : (w.hooks.get hook).wrap? (.session s) = some wrapped) : (w.setHook hook wrapped).Intercepts s := by
  refine ⟨hook,?_⟩
  rw [Hook.wrap?] at laid
  split at laid
  · cases laid
    simp [World.setHook]
  · contradiction

section Turns

variable {env : Environment MemoryHost} {s : Nat} {w w' : World MemoryHost}
  (heard : ∀ {entry w w'}, env.respond entry w = some w' → Unruled s w w')

include heard

theorem install_keeps (standing : w.Standing s) (run : env.install s w = some w') :
    w'.Standing s ∧ (w'.Masked s ↔ w.Masked s) := by
  simp only [Environment.install] at run
  split at run
  next context hook found _ =>
    have adopted : (w.session s).config.isSome := by simp [Session.config_of_context? found]
    have begun : (w.session s).phase ≠ .uninitialized := fun none => by
      simp [(standing.uninitialized none).1] at adopted
    have held : (w.session s).dropped ≠ true := fun left => by
      simp [standing.disposed (standing.dropped left)] at adopted
    split at run
    · cases run; exact ⟨standing,.rfl⟩
    next first =>
      have bare : ¬w.Intercepts s := fun laid => first (standing.installed laid)
      split at run
      next wrapped laid =>
        simp only [Option.bind_eq_bind,Option.bind_eq_some_iff] at run
        obtain ⟨told,log,emit⟩ := run
        have logged := (unruled_lasting s).log heard log
        have emitted := (unruled_lasting s).emit heard emit
        have active : (told.activate s).Standing s := by
          refine ⟨fun _ => ?_,?_,fun _ => ?_,fun _ => ?_,?_,?_⟩
          · simp [World.activate,logged.installed]
          · simp [World.activate]
          · simpa [World.activate,logged.config] using adopted
          · exact logged.intercepts.mpr (World.intercepts_wrap laid)
          · simp [World.activate]
          · simp [World.activate,logged.dropped,held]
        refine ⟨active.unruled emitted,?_⟩
        rw [emitted.masked]
        simp [World.Masked,World.activate,bare]
      next =>
        simp only [Option.bind_eq_bind,Option.bind_eq_some_iff] at run
        obtain ⟨logged,log,emit⟩ := run
        have told := ((unruled_lasting s).log heard log).trans ((unruled_lasting s).emit heard emit)
        have tried : (w.modify s fun session => {session with installed := true}).Standing s := by
          refine ⟨fun _ => ?_,?_,?_,?_,?_,?_⟩
          · simp
          · simpa using begun
          · simpa using standing.adopted
          · simpa using standing.active
          · simpa using standing.disposed
          · simpa using standing.dropped
        refine ⟨tried.unruled told,?_⟩
        rw [told.masked]
        simp [World.Masked,bare]
  next => cases run; exact ⟨standing,.rfl⟩

theorem create_keeps {platform : Option Nat} {hook logger : Nat} {options : Json} (standing : w.Standing s)
    (held : (w.session s).dropped = false) (run : env.create s platform hook logger options w = some w') :
    w'.Standing s ∧ (w'.Masked s ↔ w.Masked s ∨ (w.session s).phase = .active ∧
      ∃ config, Config.check options (platform.map w.host) = .ok config) := by
  simp only [Environment.create] at run
  split at run
  next ended =>
    have told := (unruled_lasting s).log heard run
    exact ⟨standing.unruled told,by simp [told.masked,ended]⟩
  next live =>
    have known : Unruled s w (w.modify s fun session =>
        {session with host := platform,logger := some logger,hook := some hook}) :=
      .modify fun _ => ⟨rfl,rfl,rfl,rfl⟩
    split at run
    all_goals simp only [Option.bind_eq_bind,Option.bind_eq_some_iff] at run
    next rejected =>
      obtain ⟨logged,log,emit⟩ := run
      have told := known.trans (((unruled_lasting s).log heard log).trans ((unruled_lasting s).emit heard emit))
      exact ⟨standing.unruled told,by simp [told.masked,rejected]⟩
    next config accepted =>
      obtain ⟨logged,log,told,emit,install⟩ := run
      have before := known.trans ((unruled_lasting s).log heard log)
      have emitted := (unruled_lasting s).emit heard emit
      have adopted : (logged.adopt s config .validated).Standing s := by
        refine ⟨?_,?_,?_,?_,?_,?_⟩
        · simpa [World.adopt,before.installed] using standing.installed ∘ before.intercepts.mp
        · simp [World.adopt]
        · simp [World.adopt]
        · simp [World.adopt]
        · simp [World.adopt]
        · simp [World.adopt,before.dropped,held]
      obtain ⟨keeps,masked⟩ := install_keeps heard (adopted.unruled emitted) install
      refine ⟨keeps,?_⟩
      have hidden : (logged.adopt s config .validated).Masked s ↔ w.Intercepts s := by
        simp only [World.Masked,World.adopt,World.session_reach,if_pos,true_and]
        exact before.intercepts
      rw [masked,emitted.masked,hidden,standing.intercepts_iff live]
      simp [accepted]

theorem configure_keeps {options : Json} {adopted : Bool} (standing : w.Standing s)
    (run : env.configure s options w = some (adopted,w')) :
    w'.Standing s ∧ (w'.Masked s ↔ w.Masked s) := by
  simp only [Environment.configure,Option.bind_eq_bind,Option.bind_eq_some_iff] at run
  obtain ⟨u,log,run⟩ := run
  have first := (unruled_lasting s).log heard log
  have begun := standing.unruled first
  rw [← first.masked]
  split at run
  · simp only [Option.bind_eq_some_iff] at run
    obtain ⟨last,ignored,run⟩ := run
    cases run
    have told := (unruled_lasting s).log heard ignored
    exact ⟨begun.unruled told,told.masked⟩
  next live =>
    split at run
    all_goals simp only [Option.bind_eq_some_iff] at run
    · obtain ⟨rejected,log,last,emit,run⟩ := run
      cases run
      have told := ((unruled_lasting s).log heard log).trans ((unruled_lasting s).emit heard emit)
      exact ⟨begun.unruled told,told.masked⟩
    next config accepted =>
      obtain ⟨announced,emit,hooked,install,last,regenerate,run⟩ := run
      cases run
      have emitted := (unruled_lasting s).emit heard emit
      have made := (unruled_lasting s).regenerate heard regenerate
      have kept : (u.adopt s config
          (if (u.session s).phase = .uninitialized then .validated else (u.session s).phase)).Standing s := by
        refine ⟨?_,?_,?_,?_,?_,?_⟩
        · simpa [World.adopt] using begun.installed
        · simp only [World.adopt,World.session_reach,if_pos]
          split
          · simp
          next other => exact fun none => absurd none other
        · simp [World.adopt]
        · simp only [World.adopt,World.session_reach,if_pos,World.intercepts_reach]
          split
          · simp
          · exact begun.active
        · simp only [World.adopt,World.session_reach,if_pos]
          split
          · simp
          · exact fun ended => absurd ended live
        · simpa [World.adopt] using fun left => absurd (begun.dropped left) live
      obtain ⟨keeps,masked⟩ := install_keeps heard (kept.unruled emitted) install
      refine ⟨keeps.unruled made,?_⟩
      rw [made.masked,masked,emitted.masked]
      simp only [World.Masked,World.adopt,World.session_reach,if_pos,World.intercepts_reach]
      split
      next none =>
        have bare : ¬u.Intercepts s := fun laid => by
          simpa [(begun.uninitialized none).2] using begun.installed laid
        simp [bare]
      · rfl

theorem dispose_keeps (standing : w.Standing s) (run : env.dispose s w = some w') :
    w'.Standing s ∧ (w'.session s).phase = .disposed := by
  rw [Environment.dispose] at run
  split at run
  next ended => cases run; exact ⟨standing,ended⟩
  next live =>
    simp only [Option.bind_eq_bind,Option.bind_eq_some_iff] at run
    obtain ⟨logged,log,emit⟩ := run
    have told := ((unruled_lasting s).log heard log).trans ((unruled_lasting s).emit heard emit)
    have closed : Unruled s (w.retire s) ((w.retire s).unwatch (.session s)) := .unwatch _
    have retired : (w.retire s).Standing s := by
      refine ⟨?_,?_,?_,?_,?_,?_⟩
      · simpa [World.retire] using standing.installed
      all_goals simp [World.retire]
    exact ⟨retired.unruled (closed.trans told),by rw [told.phase,closed.phase]; simp [World.retire]⟩

theorem drop_keeps (standing : w.Standing s) (run : env.drop s w = some w') :
    w'.Standing s ∧ (w'.session s).phase = .disposed := by
  simp only [Environment.drop,Option.bind_eq_bind,Option.bind_eq_some_iff] at run
  obtain ⟨last,dispose,same⟩ := run
  obtain ⟨keeps,ended⟩ := dispose_keeps heard standing dispose
  have left : (last.modify s fun session => {session with dropped := true}).Standing s := by
    refine ⟨?_,?_,?_,?_,?_,?_⟩
    · simpa using keeps.installed
    · simp [ended]
    · simp [ended]
    · simp [ended]
    · simpa using keeps.disposed
    · simp [ended]
  have released : Unruled s _ ((last.modify s fun session => {session with dropped := true}).release s) :=
    .release _
  cases same
  exact ⟨left.unruled released,by rw [released.phase]; simpa using ended⟩

end Turns

theorem onSession_cases {s : Nat} {w w' : World MemoryHost} {reply : Reply}
    {f : World MemoryHost → Option (Reply × World MemoryHost)}
    (run : Environment.onSession s w f = some (reply,w')) :
    (w.session s).dropped = true ∧ w' = w ∨ (w.session s).dropped = false ∧ f w = some (reply,w') := by
  rw [Environment.onSession] at run
  split at run
  next left => cases run; exact .inl ⟨left,rfl⟩
  next held => exact .inr ⟨by simpa using held,run⟩

theorem World.Standing.ended {s : Nat} {w : World MemoryHost} (standing : w.Standing s)
    (left : (w.session s).dropped = true) : ¬w.Masked s ∧ (w.session s).phase ≠ .active := by
  simp [World.Masked,standing.dropped left]

/-- Only to be created once more hides an interception, and only the end of the session undoes it. -/
theorem Turn.keeps {s : Nat} {command : Command} {w w' : World MemoryHost} (standing : w.Standing s)
    (turn : Turn s command w w') : w'.Standing s ∧ (w'.Masked s ↔
      w.Masked s ∧ ¬command.Ends s ∨ (w.session s).phase = .active ∧ command.Recreates s w) := by
  obtain ⟨tools,behaviour,depth,reply,issues,run⟩ := turn
  have heard {entry : Entry} {w w' : World MemoryHost}
      (run : (Environment.scripted tools behaviour depth).respond entry w = some w') : Unruled s w w' :=
    Environment.scripted_issues issues tools depth (unruled_lasting s) run
  by_cases rules : command.Rules s
  · cases command with
    | create t platform hook logger options =>
      cases rules
      rw [Environment.perform] at run
      rcases onSession_cases run with ⟨left,rfl⟩ | ⟨held,run⟩
      · exact ⟨standing,by simp [standing.ended left]⟩
      · simp only [Option.bind_eq_bind,Option.bind_eq_some_iff] at run
        obtain ⟨made,create,same⟩ := run
        cases same
        simpa [Command.Ends,Command.Recreates] using create_keeps heard standing held create
    | configure t options =>
      cases rules
      rw [Environment.perform] at run
      rcases onSession_cases run with ⟨left,rfl⟩ | ⟨held,run⟩
      · exact ⟨standing,by simp [standing.ended left]⟩
      · simp only [Option.bind_eq_bind,Option.bind_eq_some_iff] at run
        obtain ⟨⟨adopted,made⟩,configure,same⟩ := run
        cases same
        simpa [Command.Ends,Command.Recreates] using configure_keeps heard standing configure
    | dispose t =>
      cases rules
      rw [Environment.perform] at run
      rcases onSession_cases run with ⟨left,rfl⟩ | ⟨held,run⟩
      · exact ⟨standing,by simp [standing.ended left]⟩
      · simp only [Option.bind_eq_bind,Option.bind_eq_some_iff] at run
        obtain ⟨made,dispose,same⟩ := run
        cases same
        obtain ⟨keeps,ended⟩ := dispose_keeps heard standing dispose
        exact ⟨keeps,by simp [World.Masked,ended,Command.Ends,Command.Recreates]⟩
    | drop t =>
      cases rules
      rw [Environment.perform] at run
      rcases onSession_cases run with ⟨left,rfl⟩ | ⟨held,run⟩
      · exact ⟨standing,by simp [standing.ended left]⟩
      · simp only [Option.bind_eq_bind,Option.bind_eq_some_iff] at run
        obtain ⟨made,drop,same⟩ := run
        cases same
        obtain ⟨keeps,ended⟩ := drop_keeps heard standing drop
        exact ⟨keeps,by simp [World.Masked,ended,Command.Ends,Command.Recreates]⟩
    | _ => exact rules.elim
  · have same := (unruled_lasting s).perform heard rules run
    refine ⟨standing.unruled same,same.masked.trans ?_⟩
    cases command <;> simp_all [Command.Rules,Command.Ends,Command.Recreates]

/-- The worlds to which commands lead while nobody interferes with the session in the middle of one. -/
inductive Course (s : Nat) : World MemoryHost → Prop where
  | start {w : World MemoryHost} (fresh : w.Fresh) (bare : ¬w.Intercepts s) : Course s w
  | turn {command : Command} {w w' : World MemoryHost} (before : Course s w) (turn : Turn s command w w') :
      Course s w'

/-- Those of them in which the session, while active, was created once more, and lives on. -/
inductive Overridden (s : Nat) : World MemoryHost → Prop where
  | create {command : Command} {w w' : World MemoryHost} (before : Course s w)
      (active : (w.session s).phase = .active) (recreates : command.Recreates s w) (turn : Turn s command w w') :
      Overridden s w'
  | later {command : Command} {w w' : World MemoryHost} (before : Overridden s w) (lasts : ¬command.Ends s)
      (turn : Turn s command w w') : Overridden s w'

/-- The phase tells whether the session has options and intercepts resolution, so that a refresh overlooks
no change of the locale files while it does. -/
structure World.Truthful (s : Nat) (w : World MemoryHost) : Prop where
  phase : (w.session s).phase = .active ↔
    (w.session s).phase ≠ .disposed ∧ (w.session s).config.isSome ∧ w.Intercepts s
  refresh : ∀ context files, w.Intercepts s → (w.session s).context? = some context →
    Host.directoryExists context.config.localesDirectory (w.host context.host) = true →
    Host.list context.config.localesDirectory (w.host context.host) = .ok files →
    Environment.refresh.samePaths files ((w.session s).watches.map (·.path)) = false →
    ∀ env w', Environment.refresh env s w ≠ some (.ok false,w')

section Courses

variable {s : Nat} {w : World MemoryHost}

theorem World.Fresh.standing (fresh : w.Fresh) (bare : ¬w.Intercepts s) : w.Standing s := by
  have new := fresh.sessions s
  refine ⟨fun laid => absurd laid bare,fun _ => ?_,?_,?_,fun _ => ?_,?_⟩ <;> rw [new] <;> simp

theorem Course.standing (course : Course s w) : w.Standing s := by
  induction course with
  | start fresh bare => exact fresh.standing bare
  | turn before turn ih => exact (turn.keeps ih).1

theorem Overridden.course (overridden : Overridden s w) : Course s w := by
  induction overridden with
  | create before active recreates turn => exact .turn before turn
  | later before lasts turn ih => exact .turn ih turn

theorem Course.masked_iff (course : Course s w) : w.Masked s ↔ Overridden s w := by
  constructor
  · intro masked
    induction course with
    | start fresh bare => exact absurd masked.2 bare
    | turn before turn ih =>
      rcases (turn.keeps before.standing).2.mp masked with ⟨earlier,lasts⟩ | ⟨active,recreates⟩
      · exact .later (ih earlier) lasts turn
      · exact .create before active recreates turn
  · intro overridden
    induction overridden with
    | create before active recreates turn =>
      exact (turn.keeps before.standing).2.mpr (.inr ⟨active,recreates⟩)
    | later before lasts turn ih => exact (turn.keeps before.course.standing).2.mpr (.inl ⟨ih before.course,lasts⟩)

/-- The phase tells the truth, unless the session was created once more while it was active. -/
theorem truthful_iff (course : Course s w) : w.Truthful s ↔ ¬Overridden s w := by
  have standing := course.standing
  rw [← course.masked_iff]
  constructor
  · rintro truthful ⟨validated,laid⟩
    have active := truthful.phase.mpr ⟨by simp [validated],standing.adopted (.inl validated),laid⟩
    rw [validated] at active
    cases active
  · intro plain
    have phase : (w.session s).phase = .active ↔
        (w.session s).phase ≠ .disposed ∧ (w.session s).config.isSome ∧ w.Intercepts s := by
      constructor
      · intro active
        exact ⟨by simp [active],standing.adopted (.inr active),standing.active active⟩
      · rintro ⟨live,-,laid⟩
        exact ((standing.intercepts_iff live).mp laid).resolve_left plain
    refine ⟨phase,fun context files laid ready present listed changed env w' => ?_⟩
    have adopted := Session.config_of_context? ready
    have live : (w.session s).phase ≠ .disposed := fun ended => by simp [standing.disposed ended] at adopted
    have active := phase.mpr ⟨live,by simp [adopted],laid⟩
    intro run
    simp only [Environment.refresh,active,ready,present,listed,changed,ne_eq,not_true_eq_false,if_false,
      Bool.not_true,Bool.false_eq_true,Option.bind_eq_bind,Option.bind_eq_some_iff] at run
    obtain ⟨told,log,made,regenerate,⟨outcome,last⟩,watch,run⟩ := run
    split at run <;> cases run

end Courses

section Recreated

/-- The session was given the same options once more, as if it were new. -/
def World.recreated : World MemoryHost :=
  {World.manned with
    sessions := ⟨[{World.manned.session 0 with phase := .validated}]⟩
    trace := World.manned.trace ++ [
      .logged 0 ("create plugin: " ++ plainOptions.text),
      .reached 0 (.adopted plainContext.config),
      .emitted 0 (.activated "i18n")]}

/-- Nobody does anything while the session is created. -/
theorem turn_create {w w' : World MemoryHost} {reply : Reply}
    (run : Environment.stamping.perform (.create 0 (some 0) 0 0 plainOptions) w = some (reply,w')) :
    Turn 0 (.create 0 (some 0) 0 0 plainOptions) w w' :=
  ⟨_,fun _ _ => .done,0,reply,fun _ _ => trivial,run⟩

theorem manned_course : Course 0 World.manned := by
  have bare : ¬World.vacant.Intercepts 0 := by
    rintro ⟨hook,laid⟩
    cases hook <;> cases laid
  have run : Environment.stamping.perform (.create 0 (some 0) 0 0 plainOptions) .vacant =
      some (.service 0,.manned) := by rfl
  exact .turn (.start World.vacant_fresh bare) (turn_create run)

theorem manned_recreated : Turn 0 (.create 0 (some 0) 0 0 plainOptions) World.manned World.recreated := by
  have run : Environment.stamping.perform (.create 0 (some 0) 0 0 plainOptions) .manned =
      some (.service 0,.recreated) := by rfl
  exact turn_create run

theorem recreated_overridden : Overridden 0 World.recreated := by
  have accepted : Config.check plainOptions (some (World.manned.host 0)) = .ok plainContext.config := by
    decide +kernel
  have recreates : (Command.create 0 (some 0) 0 0 plainOptions).Recreates 0 World.manned := ⟨rfl,_,accepted⟩
  exact .create manned_course rfl recreates manned_recreated

/-- Created once more, the session still intercepts resolution, but its phase has it that it does not, and
a refresh overlooks that nothing is watched yet. -/
theorem recreated_masked : Course 0 World.recreated ∧ (World.recreated.session 0).phase = .validated ∧
    (World.recreated.session 0).config = some plainContext.config ∧ World.recreated.Intercepts 0 ∧
    Host.list plainContext.config.localesDirectory (World.recreated.host 0) = .ok [⟨"/p/locales/en.yaml"⟩] ∧
    (World.recreated.session 0).watches = [] ∧
    ∀ env, Environment.refresh env 0 World.recreated = some (.ok false,World.recreated) := by
  refine ⟨.turn manned_course manned_recreated,rfl,rfl,⟨0,by simp [World.recreated,World.manned,Slots.get]⟩,?_,rfl,
    fun _ => rfl⟩
  decide +kernel

theorem manned_truthful : World.manned.Truthful 0 ∧ ¬World.recreated.Truthful 0 := by
  have plain : ¬Overridden 0 World.manned := fun overridden => by
    cases (manned_course.masked_iff.mpr overridden).1
  refine ⟨(truthful_iff manned_course).mpr plain,fun truthful => ?_⟩
  exact (truthful_iff (.turn manned_course manned_recreated)).mp truthful recreated_overridden

end Recreated

end Phrasebook
