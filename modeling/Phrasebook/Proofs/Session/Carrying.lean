import Phrasebook.Session.Scripted

/-! What operations are made of, so that a relation between worlds need be followed through all of them only
once. Whoever shows that it outlasts the changes made between two call-outs (`Move`), the renewal of a watch
set and a regeneration as a whole, has it from the start to the end of every command: `Carries.perform`. -/
namespace Phrasebook

/-- Every command that a script may come to issue. -/
def Script.Issues (issued : Command → Prop) : Script → Prop
  | .done => True
  | .issue command next => issued command ∧ ∀ reply, (next reply).Issues issued

/-- Commands by which a session adopts options and lays itself over a resolver. -/
def Command.Adopts (s : Nat) : Command → Prop
  | .create t _ _ _ _ => t = s
  | .configure t _ => t = s
  | _ => False

/-- Commands by which a session renews its watches. -/
def Command.Watches (s : Nat) : Command → Prop
  | .refresh t => t = s
  | .resolve _ _ => True
  | _ => False

/-- Events that tell how a run ended. -/
def Event.isReport : Event → Bool
  | .regenerated _ _ _ | .regenerationFailed _ => true
  | _ => false

/-- What an entry tells an event sink about a run. -/
def Entry.report? : Entry → Option (Nat × Event)
  | .emitted sink event => if event.isReport then some (sink,event) else none
  | _ => none

/-- A change that an operation makes on its own, without calling a collaborator in between and apart from what
belongs to a regeneration or the renewal of a watch set. It acts on `b`, by what the operation read in the
earlier world `a`; `issued` are the commands that may be under way. -/
inductive Move (issued : Command → Prop) (a b : World MemoryHost) : World MemoryHost → Prop where
  | record (entry : Entry) (silent : ∀ s, entry.milestone? s = none) (plain : entry.report? = none) :
      Move issued a b (b.record entry)
  | write (h : Nat) (path : Path) (content : String) (state : MemoryHost)
      (generates : ∃ logger config, issued (.generate h logger config))
      (written : Host.write path content (b.host h) = .ok state) : Move issued a b (b.setHost h state)
  | instruct (h : Nat) (command : HostCommand) (instructs : issued (.host h command)) :
      Move issued a b (b.setHost h ((b.host h).perform command).2)
  | edit (h : Nat) (path : Path) (content : String) (edits : issued (.edit h path content)) :
      Move issued a b (b.setHost h ((b.host h).insert path content))
  | prune (h : Nat) : Move issued a b (b.setHost h (b.host h).prune)
  | generate (s : Nat) :
      Move issued a b (b.modify s fun session => {session with generations := session.generations + 1})
  | renewSink (s : Nat) (renews : issued (.renewSink s)) : Move issued a b (b.renewSink s)
  | introduce (s : Nat) (host : Option Nat) (hook logger : Nat) (options : Json)
      (creates : issued (.create s host hook logger options)) (live : (a.session s).phase ≠ .disposed) :
      Move issued a b (b.modify s fun session =>
        {session with host := host,logger := some logger,hook := some hook})
  | create (s : Nat) (host : Option Nat) (hook logger : Nat) (options : Json) (config : Config)
      (creates : issued (.create s host hook logger options)) (live : (a.session s).phase ≠ .disposed)
      (accepted : Config.check options (host.map a.host) = .ok config) :
      Move issued a b (b.adopt s config .validated)
  | configure (s : Nat) (options : Json) (config : Config) (configures : issued (.configure s options))
      (live : (b.session s).phase ≠ .disposed)
      (accepted : Config.check options ((b.session s).host.map b.host) = .ok config) :
      Move issued a b (b.adopt s config
        (if (b.session s).phase = .uninitialized then .validated else (b.session s).phase))
  | install (s : Nat) (ready : (a.session s).context?.isSome) (first : (a.session s).installed = false)
      (adopts : ∃ command, issued command ∧ command.Adopts s) :
      Move issued a b (b.modify s fun session => {session with installed := true})
  | wrap (s hook : Nat) (wrapped : Hook) (ready : (a.session s).context?.isSome)
      (first : (a.session s).installed = false)
      (laid : (b.hooks.get hook).wrap? (.session s) = some wrapped)
      (adopts : ∃ command, issued command ∧ command.Adopts s) : Move issued a b (b.setHook hook wrapped)
  | activate (s : Nat) (adopts : ∃ command, issued command ∧ command.Adopts s)
      (ready : (a.session s).context?.isSome) (first : (a.session s).installed = false) :
      Move issued a b (b.activate s)
  | release (s : Nat) : Move issued a b (b.release s)
  | rewatchRecorder (r h : Nat) (files : List Path) : Move issued a b (b.rewatch (.recorder r) h files).2
  | unwatchRecorder (r : Nat) : Move issued a b (b.unwatch (.recorder r))
  | dispose (s : Nat) (disposes : issued (.dispose s) ∨ issued (.drop s))
      (live : (b.session s).phase ≠ .disposed) : Move issued a b ((b.retire s).unwatch (.session s))
  | drop (s : Nat) (drops : issued (.drop s)) :
      Move issued a b (b.modify s fun session => {session with dropped := true})

/-- A relation between an earlier and a later world that no move breaks, nor what collaborators do. If it lasts
while a layer or a watch is at work, it lasts until that is done. -/
structure Bears (issued : Command → Prop) (env : Environment MemoryHost)
    (R : World MemoryHost → World MemoryHost → Prop) : Prop where
  refl : ∀ w, R w w
  trans : ∀ {a b c}, R a b → R b c → R a c
  heard : ∀ {entry w w'}, env.respond entry w = some w' → R w w'
  move : ∀ {a b c}, R a b → Move issued a b c → R a c
  during : ∀ {a b s}, R (a.hold s) b → R a ((b.leave s).release s)

/-- Nor do regenerations break it, nor does the renewal of a watch set, by options that were read in `a` and a
listing that was made in `u`. -/
structure Carries (issued : Command → Prop) (env : Environment MemoryHost)
    (R : World MemoryHost → World MemoryHost → Prop) : Prop extends Bears issued env R where
  rewatch : ∀ {a u b s context files}, R a u → R u b → (∃ command, issued command ∧ command.Watches s) →
    (a.session s).context? = some context →
    Host.list context.config.localesDirectory (u.host context.host) = .ok files →
    R a (b.rewatch (.session s) context.host files).2
  regenerate : ∀ {s w w'}, env.regenerate s w = some w' → R w w'

section Operations

variable {issued : Command → Prop} {env : Environment MemoryHost}
  {R : World MemoryHost → World MemoryHost → Prop} {a w w' : World MemoryHost} {s h : Nat}

namespace Bears

variable (bears : Bears issued env R)

include bears

theorem once {c : World MemoryHost} (move : Move issued w w c) : R w c :=
  bears.move (bears.refl w) move

theorem announce {entry : Entry} (silent : ∀ s, entry.milestone? s = none) (plain : entry.report? = none)
    (run : env.announce entry w = some w') : R w w' :=
  bears.trans (bears.once (.record entry silent plain)) (bears.heard run)

theorem log {logger : Option Nat} {line : String} (run : env.log logger line w = some w') : R w w' := by
  cases logger with
  | none => cases run; exact bears.refl w
  | some logger => exact bears.announce (fun _ => rfl) rfl run

theorem emit {event : Event} (plain : event.isReport = false) (run : env.emit s event w = some w') : R w w' := by
  rw [Environment.emit] at run
  split at run
  · exact bears.announce (fun _ => rfl) (by simp [Entry.report?,plain]) run
  · cases run; exact bears.refl w

/-- An event of any kind, if none breaks the relation. -/
theorem tell (records : ∀ {w} entry, (∀ s, entry.milestone? s = none) → R w (w.record entry)) {event : Event}
    (run : env.emit s event w = some w') : R w w' := by
  rw [Environment.emit] at run
  split at run
  · exact bears.trans (records _ fun _ => rfl) (bears.heard run)
  · cases run; exact bears.refl w

theorem announceCall {generator : Option Nat} (run : env.announceCall generator w = some w') : R w w' := by
  cases generator with
  | none => cases run; exact bears.refl w
  | some s =>
    exact bears.trans (bears.once (.generate s)) (bears.announce (fun _ => rfl) rfl run)

theorem render {generator : Option Nat} {config : Config} {target : Target} {result}
    (run : env.render generator h config target w = some (result,w')) : R w w' := by
  rw [Environment.render] at run
  split at run
  · cases run; exact bears.refl w
  · simp only [Option.bind_eq_bind,Option.bind_eq_some_iff] at run
    obtain ⟨called,call,run⟩ := run
    have first := bears.announceCall call
    split at run <;> cases run <;> exact first

variable (writes : ∀ {w path content state}, Host.write path content (w.host h) = .ok state → R w (w.setHost h state))

include writes

theorem save {output : Path} {rendered} : R w (Environment.save h output rendered w).2 := by
  unfold Environment.save
  split
  · exact bears.refl w
  · split
    · exact bears.refl w
    next written => exact writes written

theorem produce {generator logger : Option Nat} {config : Config} {result}
    (run : env.produce generator h logger config w = some (result,w')) : R w w' := by
  simp only [Environment.produce,Option.bind_eq_bind,Option.bind_eq_some_iff] at run
  obtain ⟨logged,log,⟨rendered,called⟩,render,run⟩ := run
  have saved : R w (Environment.save h config.outputPath rendered called).2 :=
    bears.trans (bears.trans (bears.log log) (bears.render render)) (bears.save writes)
  split at run
  next report after save =>
    rw [save] at saved
    simp only [Option.bind_eq_some_iff] at run
    obtain ⟨last,told,run⟩ := run
    cases run
    exact bears.move (bears.trans saved (bears.log told)) (.record _ (fun _ => rfl) rfl)
  next fault after save =>
    rw [save] at saved
    simp only [Option.bind_eq_some_iff] at run
    obtain ⟨last,told,run⟩ := run
    cases run
    exact bears.trans saved (bears.log told)

end Bears

namespace Carries

variable (carries : Carries issued env R)

include carries

theorem install (adopts : ∃ command, issued command ∧ command.Adopts s)
    (run : env.install s w = some w') : R w w' := by
  simp only [Environment.install] at run
  split at run
  next context hook found _ =>
    have ready : (w.session s).context?.isSome := by simp [found]
    split at run
    · cases run; exact carries.refl w
    next first =>
      have first : (w.session s).installed = false := by simpa using first
      have tried := carries.once (.install s ready first adopts)
      split at run
      next wrapped laid =>
        simp only [Option.bind_eq_bind,Option.bind_eq_some_iff] at run
        obtain ⟨told,log,emit⟩ := run
        have hooked := carries.move tried (.wrap s hook wrapped ready first laid adopts)
        exact carries.trans
          (carries.move (carries.trans hooked (carries.log log)) (.activate s adopts ready first))
          (carries.emit rfl emit)
      next =>
        simp only [Option.bind_eq_bind,Option.bind_eq_some_iff] at run
        obtain ⟨told,log,emit⟩ := run
        exact carries.trans tried (carries.trans (carries.log log) (carries.emit rfl emit))
  next => cases run; exact carries.refl w

theorem create {host : Option Nat} {hook logger : Nat} {options : Json}
    (creates : issued (.create s host hook logger options))
    (run : env.create s host hook logger options w = some w') : R w w' := by
  simp only [Environment.create] at run
  split at run
  · exact carries.log run
  next live =>
    have known := carries.once (.introduce s host hook logger options creates live)
    split at run
    all_goals simp only [Option.bind_eq_bind,Option.bind_eq_some_iff] at run
    · obtain ⟨told,log,emit⟩ := run
      exact carries.trans known (carries.trans (carries.log log) (carries.emit rfl emit))
    next config accepted =>
      obtain ⟨told,log,adopted,emit,install⟩ := run
      have adopts := carries.move (carries.trans known (carries.log log))
        (.create s host hook logger options config creates live accepted)
      exact carries.trans (carries.trans adopts (carries.emit rfl emit))
        (carries.install ⟨_,creates,rfl⟩ install)

theorem configure {options : Json} {adopted : Bool} (configures : issued (.configure s options))
    (run : env.configure s options w = some (adopted,w')) : R w w' := by
  simp only [Environment.configure,Option.bind_eq_bind,Option.bind_eq_some_iff] at run
  obtain ⟨told,log,run⟩ := run
  have first := carries.log log
  split at run
  · simp only [Option.bind_eq_some_iff] at run
    obtain ⟨last,ignored,run⟩ := run
    cases run
    exact carries.trans first (carries.log ignored)
  next live =>
    split at run
    all_goals simp only [Option.bind_eq_some_iff] at run
    · obtain ⟨rejected,log,last,emit,run⟩ := run
      cases run
      exact carries.trans first (carries.trans (carries.log log) (carries.emit rfl emit))
    next config accepted =>
      obtain ⟨announced,emit,hooked,install,last,regenerate,run⟩ := run
      cases run
      have adopts := carries.move first
        (.configure s options config configures live accepted)
      exact carries.trans (carries.trans adopts (carries.emit rfl emit))
        (carries.trans (carries.install ⟨_,configures,rfl⟩ install) (carries.regenerate regenerate))

/-- The options were read in the world `a`. -/
theorem refreshWatches {context : Context} {result} (watches : ∃ command, issued command ∧ command.Watches s)
    (ready : (a.session s).context? = some context) (before : R a w)
    (run : env.refreshWatches s context w = some (result,w')) : R a w' := by
  rw [Environment.refreshWatches] at run
  split at run
  · cases run; exact before
  next files listed =>
    simp only [Option.bind_eq_bind,Option.bind_eq_some_iff] at run
    obtain ⟨closing,close,opening,log,run⟩ := run
    have logged := carries.trans (carries.log close) (carries.log log)
    have opened := carries.rewatch before logged watches ready listed
    split at run
    next fault after rewatch =>
      rw [rewatch] at opened
      cases run
      exact opened
    next refreshed after rewatch =>
      rw [rewatch] at opened
      simp only [Option.bind_eq_some_iff] at run
      obtain ⟨told,log,last,emit,run⟩ := run
      cases run
      exact carries.trans opened (carries.trans (carries.log log) (carries.emit rfl emit))

theorem refresh {result} (refreshes : issued (.refresh s)) (run : env.refresh s w = some (result,w')) : R w w' := by
  simp only [Environment.refresh] at run
  split at run
  · cases run; exact carries.refl w
  · split at run
    · cases run; exact carries.refl w
    next context ready =>
      split at run
      · cases run; exact carries.refl w
      · split at run
        · cases run; exact carries.refl w
        · split at run
          · cases run; exact carries.refl w
          · simp only [Option.bind_eq_bind,Option.bind_eq_some_iff] at run
            obtain ⟨told,log,regenerated,regenerate,⟨outcome,last⟩,refresh,run⟩ := run
            have made := carries.refreshWatches ⟨_,refreshes,rfl⟩ ready
              (carries.trans (carries.log log) (carries.regenerate regenerate)) refresh
            split at run <;> cases run <;> simp_all

theorem dispose (disposes : issued (.dispose s) ∨ issued (.drop s))
    (run : env.dispose s w = some w') : R w w' := by
  rw [Environment.dispose] at run
  split at run
  · cases run; exact carries.refl w
  next live =>
    simp only [Option.bind_eq_bind,Option.bind_eq_some_iff] at run
    obtain ⟨told,log,emit⟩ := run
    exact carries.trans (carries.once (.dispose s disposes live))
      (carries.trans (carries.log log) (carries.emit rfl emit))

theorem drop (drops : issued (.drop s)) (run : env.drop s w = some w') : R w w' := by
  simp only [Environment.drop,Option.bind_eq_bind,Option.bind_eq_some_iff] at run
  obtain ⟨disposed,dispose,run⟩ := run
  cases run
  have left := carries.move (carries.dispose (.inr drops) dispose) (.drop s drops)
  exact carries.move left (.release s)

theorem fileChanged {path : Path} (run : env.fileChanged s path w = some w') : R w w' := by
  cases gone : w.gone s with
  | true =>
    rw [env.fileChanged_of_gone gone] at run
    cases run
    exact carries.refl w
  | false =>
    obtain ⟨told,made,emit,regenerate,rfl⟩ := (env.fileChanged_of_there gone).mp run
    have noted : R (w.hold s) ((w.hold s).record (.noted (.fileChanged path))) :=
      carries.once (.record _ (fun _ => rfl) rfl)
    exact carries.during (carries.trans noted (carries.trans (carries.emit rfl emit) (carries.regenerate regenerate)))

theorem intercept {file : Path} {found result} (watches : ∃ command, issued command ∧ command.Watches s)
    (run : env.intercept s file found w = some (result,w')) : R w w' := by
  induction found generalizing w result with
  | nil => cases run; exact carries.refl _
  | cons first rest ih =>
    obtain ⟨name,resolution⟩ := first
    rw [Environment.intercept] at run
    split at run
    · cases run; exact carries.refl _
    next context ready =>
      split at run
      · obtain ⟨later,found,-⟩ := Environment.answer_eq_some.mp run
        exact ih found
      · simp only [Option.bind_eq_bind,Option.bind_eq_some_iff] at run
        obtain ⟨told,log,run⟩ := run
        have first := carries.log log
        split at run
        · obtain ⟨later,found,-⟩ := Environment.answer_eq_some.mp run
          exact carries.trans (carries.move first (.record _ (fun _ => rfl) rfl)) (ih found)
        · simp only [Option.bind_eq_some_iff] at run
          obtain ⟨regenerated,regenerate,⟨outcome,watched⟩,refresh,run⟩ := run
          have made := carries.refreshWatches watches ready
            (carries.trans first (carries.regenerate regenerate)) refresh
          split at run
          next same => cases same; cases run; exact made
          next same =>
            cases same
            simp only [Option.bind_eq_some_iff] at run
            obtain ⟨emitted,emit,run⟩ := run
            obtain ⟨later,found,-⟩ := Environment.answer_eq_some.mp run
            exact carries.trans (carries.trans made (carries.emit rfl emit)) (ih found)

theorem ask {baseline : Resolver} {query : Query} {layers result}
    (watches : ∀ s, ∃ command, issued command ∧ command.Watches s)
    (run : env.ask baseline query layers w = some (result,w')) : R w w' := by
  induction layers generalizing w' result with
  | nil => cases run; exact carries.once (.record _ (fun _ => rfl) rfl)
  | cons layer inner ih =>
    simp only [Environment.ask,Option.bind_eq_bind,Option.bind_eq_some_iff] at run
    obtain ⟨⟨answers,asked⟩,ask,run⟩ := run
    have before := ih ask
    split at run
    next same => cases same; cases run; exact before
    next same =>
      cases same
      split at run
      · cases run; exact before
      next s =>
        simp only [Option.bind_eq_some_iff] at run
        obtain ⟨⟨final,intercepted⟩,intercept,run⟩ := run
        cases run
        exact carries.trans before (carries.during (carries.intercept (watches s) intercept))

theorem resolve {hook : Nat} {query : Query} {result} (resolves : issued (.resolve hook query))
    (run : env.resolve hook query w = some (result,w')) : R w w' := by
  simp only [Environment.resolve] at run
  split at run
  · cases run; exact carries.refl w
  · exact carries.ask (fun _ => ⟨_,resolves,trivial⟩) run

theorem fire {watch : Watch} (run : env.fire watch w = some w') : R w w' := by
  rw [Environment.fire] at run
  split at run
  · exact carries.fileChanged run
  · cases run; exact carries.once (.record _ (fun _ => rfl) rfl)

theorem fireAll {watches : List Watch} (run : env.fireAll watches w = some w') : R w w' := by
  induction watches generalizing w with
  | nil => cases run; exact carries.refl _
  | cons watch rest ih =>
    simp only [Environment.fireAll,Option.bind_eq_bind,Option.bind_eq_some_iff] at run
    obtain ⟨fired,fire,run⟩ := run
    exact carries.trans (carries.fire fire) (ih run)

theorem notify {path : Path} {count : Nat} (run : env.notify h path w = some (count,w')) : R w w' := by
  simp only [Environment.notify,Option.bind_eq_bind,Option.bind_eq_some_iff] at run
  obtain ⟨fired,fire,run⟩ := run
  cases run
  exact carries.trans (carries.once (.prune h)) (carries.fireAll fire)

theorem perform {command : Command} {reply : Reply} (issues : issued command)
    (run : env.perform command w = some (reply,w')) : R w w' := by
  have stay : R w w := carries.refl w
  cases command with
  | host h command =>
    cases run
    exact carries.once (.instruct h command issues)
  | edit h path content =>
    simp only [Environment.perform,Option.bind_eq_bind,Option.bind_eq_some_iff] at run
    obtain ⟨⟨count,notified⟩,notify,run⟩ := run
    cases run
    have inserted := carries.once (w := w) (.edit h path content issues)
    exact carries.trans inserted (carries.notify notify)
  | notify h path =>
    simp only [Environment.perform,Option.bind_eq_bind,Option.bind_eq_some_iff] at run
    obtain ⟨⟨count,notified⟩,notify,run⟩ := run
    cases run
    exact carries.notify notify
  | load => cases run; exact stay
  | render h config target =>
    simp only [Environment.perform,Option.bind_eq_bind,Option.bind_eq_some_iff] at run
    obtain ⟨⟨result,rendered⟩,render,run⟩ := run
    cases run
    exact carries.render render
  | generate h logger config =>
    simp only [Environment.perform,Option.bind_eq_bind,Option.bind_eq_some_iff] at run
    obtain ⟨⟨result,produced⟩,produce,run⟩ := run
    cases run
    exact carries.produce (fun written => carries.once (.write h _ _ _ ⟨logger,config,issues⟩ written)) produce
  | rewatch r h files => cases run; exact carries.once (.rewatchRecorder r h files)
  | unwatch r => cases run; exact carries.once (.unwatchRecorder r)
  | dropRecorder r => cases run; exact carries.once (.unwatchRecorder r)
  | watched => cases run; exact stay
  | hookState => cases run; exact stay
  | resolve hook query =>
    simp only [Environment.perform,Option.bind_eq_bind,Option.bind_eq_some_iff] at run
    obtain ⟨⟨result,resolved⟩,resolve,run⟩ := run
    cases run
    exact carries.resolve issues resolve
  | create s host hook logger options =>
    rw [Environment.perform] at run
    rcases Environment.onSession_eq_some run with rfl | run
    · exact stay
    · simp only [Option.bind_eq_bind,Option.bind_eq_some_iff] at run
      obtain ⟨created,create,run⟩ := run
      cases run
      exact carries.create issues create
  | configure s options =>
    rw [Environment.perform] at run
    rcases Environment.onSession_eq_some run with rfl | run
    · exact stay
    · simp only [Option.bind_eq_bind,Option.bind_eq_some_iff] at run
      obtain ⟨⟨adopted,configured⟩,configure,run⟩ := run
      cases run
      exact carries.configure issues configure
  | regenerate s =>
    rw [Environment.perform] at run
    rcases Environment.onSession_eq_some run with rfl | run
    · exact stay
    · simp only [Option.bind_eq_bind,Option.bind_eq_some_iff] at run
      obtain ⟨regenerated,regenerate,run⟩ := run
      cases run
      exact carries.regenerate regenerate
  | refresh s =>
    rw [Environment.perform] at run
    rcases Environment.onSession_eq_some run with rfl | run
    · exact stay
    · simp only [Option.bind_eq_bind,Option.bind_eq_some_iff] at run
      obtain ⟨⟨result,refreshed⟩,refresh,run⟩ := run
      cases run
      exact carries.refresh issues refresh
  | dispose s =>
    rw [Environment.perform] at run
    rcases Environment.onSession_eq_some run with rfl | run
    · exact stay
    · simp only [Option.bind_eq_bind,Option.bind_eq_some_iff] at run
      obtain ⟨disposed,dispose,run⟩ := run
      cases run
      exact carries.dispose (.inl issues) dispose
  | renewSink s =>
    rw [Environment.perform] at run
    rcases Environment.onSession_eq_some run with rfl | run
    · exact stay
    · cases run; exact carries.once (.renewSink s issues)
  | drop s =>
    rw [Environment.perform] at run
    rcases Environment.onSession_eq_some run with rfl | run
    · exact stay
    · simp only [Option.bind_eq_bind,Option.bind_eq_some_iff] at run
      obtain ⟨dropped,drop,run⟩ := run
      cases run
      exact carries.drop issues drop

theorem follow {script : Script} (issues : script.Issues issued)
    (run : env.follow script w = some w') : R w w' := by
  induction script generalizing w with
  | done => cases run; exact carries.refl _
  | issue command next ih =>
    simp only [Environment.follow,Option.bind_eq_bind,Option.bind_eq_some_iff] at run
    obtain ⟨⟨reply,performed⟩,perform,run⟩ := run
    have carried := carries.move (carries.perform issues.1 perform)
      (.record (.nested reply) (fun _ => rfl) rfl)
    exact carries.trans carried (ih reply (issues.2 reply) run)

end Carries

/-- What is carried as long as collaborators carry it, is carried however deep scripts set off scripts. -/
theorem Carries.scripted (refl : ∀ w, R w w)
    {tools : Toolchain} (carries : ∀ env : Environment MemoryHost, env.toolchain = tools →
      (∀ {entry w w'}, env.respond entry w = some w' → R w w') → Carries issued env R)
    {behaviour : Behaviour} (issues : ∀ entry w, (behaviour entry w).Issues issued)
    (depth : Nat) : Carries issued (Environment.scripted tools behaviour depth) R := by
  induction depth with
  | zero =>
    refine carries _ rfl fun {entry w w'} run => ?_
    simp only [Environment.scripted] at run
    split at run
    · cases run; exact refl w
    · contradiction
  | succ depth ih => exact carries _ rfl fun {entry w w'} run => ih.follow (issues entry w) run

end Operations
end Phrasebook
