import Phrasebook.Proofs.Session.Carrying

/-! What happens to a world while commands are carried out, one change at a time, the changes within a
regeneration included. A relation between worlds that every `Step` keeps holds from the start of a command to
its end, whatever the collaborators do in between: `perform_lasting`. -/
namespace Phrasebook

/-- Only files and directories differ. -/
structure MemoryHost.SameWatches (before after : MemoryHost) : Prop where
  watches : after.watches = before.watches
  opened : after.opened = before.opened
  closed : after.closed = before.closed

theorem MemoryHost.SameWatches.trans {a b c : MemoryHost} (first : a.SameWatches b) (next : b.SameWatches c) :
    a.SameWatches c :=
  ⟨next.watches.trans first.watches,next.opened.trans first.opened,next.closed.trans first.closed⟩

theorem MemoryHost.perform_sameWatches (host : MemoryHost) (command : HostCommand) :
    host.SameWatches (host.perform command).2 := by
  cases command with
  | write path content =>
    simp only [perform,write]
    split
    next host' h =>
      split at h
      · contradiction
      · cases h; exact ⟨rfl,rfl,rfl⟩
    next => exact ⟨rfl,rfl,rfl⟩
  | list path =>
    simp only [perform]
    split <;> exact ⟨rfl,rfl,rfl⟩
  | _ => exact ⟨rfl,rfl,rfl⟩

theorem MemoryHost.write_sameWatches {host state : MemoryHost} {path : Path} {content : String}
    (h : Host.write path content host = .ok state) : host.SameWatches state := by
  have written := perform_sameWatches host (.write path content)
  change host.write path content = .ok state at h
  rwa [perform,h] at written

theorem MemoryHost.prune_sameWatches (host : MemoryHost) : host.SameWatches host.prune :=
  ⟨by simp [prune,watches],rfl,rfl⟩

/-- A change that an operation makes without calling a collaborator in between. It acts on `b`, by
what the operation read in the earlier world `a`; `issued` are the commands that may be under way. -/
inductive Step (issued : Command → Prop) (a b : World MemoryHost) : World MemoryHost → Prop where
  | record (entry : Entry) (silent : ∀ s, entry.milestone? s = none) : Step issued a b (b.record entry)
  | host (h : Nat) (state : MemoryHost) (same : (b.host h).SameWatches state) :
      Step issued a b (b.setHost h state)
  | generate (s : Nat) :
      Step issued a b (b.modify s fun session => {session with generations := session.generations + 1})
  | renewSink (s : Nat) : Step issued a b (b.renewSink s)
  | request (s : Nat) : Step issued a b (b.request s)
  | lock (s : Nat) (idle : (a.session s).inFlight = false) : Step issued a b (b.lock s)
  | unlock (s : Nat) (idle : (a.session s).inFlight = false) : Step issued a b (b.unlock s)
  | heed (s : Nat) (idle : (a.session s).inFlight = false) : Step issued a b (b.heed s)
  | start (s : Nat) (config : Config) (idle : (a.session s).inFlight = false)
      (adopted : (b.session s).config = some config) : Step issued a b (b.start s config)
  | finish (s : Nat) (status : Status) (idle : (a.session s).inFlight = false) :
      Step issued a b (b.finish s status)
  | introduce (s : Nat) (host : Option Nat) (hook logger : Nat) (options : Json)
      (creates : issued (.create s host hook logger options)) (live : (a.session s).phase ≠ .disposed) :
      Step issued a b (b.modify s fun session =>
        {session with host := host,logger := some logger,hook := some hook})
  | create (s : Nat) (host : Option Nat) (hook logger : Nat) (options : Json) (config : Config)
      (creates : issued (.create s host hook logger options)) (live : (a.session s).phase ≠ .disposed)
      (accepted : Config.check options (host.map a.host) = .ok config) :
      Step issued a b (b.adopt s config .validated)
  | configure (s : Nat) (options : Json) (config : Config) (configures : issued (.configure s options))
      (live : (b.session s).phase ≠ .disposed)
      (accepted : Config.check options ((b.session s).host.map b.host) = .ok config) :
      Step issued a b (b.adopt s config
        (if (b.session s).phase = .uninitialized then .validated else (b.session s).phase))
  | install (s : Nat) (ready : (a.session s).context?.isSome) (first : (a.session s).installed = false)
      (adopts : ∃ command, issued command ∧ command.Adopts s) :
      Step issued a b (b.modify s fun session => {session with installed := true})
  | wrap (s hook : Nat) (wrapped : Hook) (ready : (a.session s).context?.isSome)
      (first : (a.session s).installed = false)
      (laid : (b.hooks.get hook).wrap? (.session s) = some wrapped)
      (adopts : ∃ command, issued command ∧ command.Adopts s) : Step issued a b (b.setHook hook wrapped)
  | activate (s : Nat) (adopts : ∃ command, issued command ∧ command.Adopts s)
      (ready : (a.session s).context?.isSome) (first : (a.session s).installed = false) :
      Step issued a b (b.activate s)
  | rewatch (s : Nat) (context : Context) (files : List Path)
      (watches : ∃ command, issued command ∧ command.Watches s)
      (ready : (a.session s).context? = some context) :
      Step issued a b (b.rewatch (.session s) context.host files).2
  | hold (s : Nat) : Step issued a b (b.hold s)
  | leave (s : Nat) : Step issued a b (b.leave s)
  | release (s : Nat) : Step issued a b (b.release s)
  | rewatchRecorder (r h : Nat) (files : List Path) : Step issued a b (b.rewatch (.recorder r) h files).2
  | unwatchRecorder (r : Nat) : Step issued a b (b.unwatch (.recorder r))
  | dispose (s : Nat) (disposes : issued (.dispose s) ∨ issued (.drop s))
      (live : (b.session s).phase ≠ .disposed) : Step issued a b ((b.retire s).unwatch (.session s))
  | drop (s : Nat) (drops : issued (.drop s)) :
      Step issued a b (b.modify s fun session => {session with dropped := true})

/-- What happens outside of regenerations is part of what happens at all. -/
theorem Move.toStep {issued : Command → Prop} {a b c : World MemoryHost} (move : Move issued a b c) :
    Step issued a b c := by
  cases move with
  | record entry silent _ => exact .record entry silent
  | write h path content state _ written => exact .host h state (MemoryHost.write_sameWatches written)
  | instruct h command => exact .host h _ (MemoryHost.perform_sameWatches _ _)
  | edit h path content => exact .host h _ ⟨rfl,rfl,rfl⟩
  | prune h => exact .host h _ (MemoryHost.prune_sameWatches _)
  | generate s => exact .generate s
  | renewSink s => exact .renewSink s
  | introduce s host hook logger options creates live => exact .introduce s host hook logger options creates live
  | create s host hook logger options config creates live accepted =>
    exact .create s host hook logger options config creates live accepted
  | configure s options config configures live accepted =>
    exact .configure s options config configures live accepted
  | install s ready first adopts => exact .install s ready first adopts
  | wrap s hook wrapped ready first laid adopts => exact .wrap s hook wrapped ready first laid adopts
  | activate s adopts ready first => exact .activate s adopts ready first
  | release s => exact .release s
  | rewatchRecorder r h files => exact .rewatchRecorder r h files
  | unwatchRecorder r => exact .unwatchRecorder r
  | dispose s disposes live => exact .dispose s disposes live
  | drop s drops => exact .drop s drops

/-- A relation between an earlier and a later world that no step breaks. -/
structure Lasting (issued : Command → Prop) (R : World MemoryHost → World MemoryHost → Prop) : Prop where
  refl : ∀ w, R w w
  trans : ∀ {a b c}, R a b → R b c → R a c
  step : ∀ {a b c}, R a b → Step issued a b c → R a c

namespace Lasting

/-- What every step keeps true. -/
theorem ofInvariant {issued : Command → Prop} {I : World MemoryHost → Prop}
    (keeps : ∀ {a b c}, I a → I b → Step issued a b c → I c) :
    Lasting issued fun a b => I a → I b where
  refl _ := id
  trans first next := next ∘ first
  step first step valid := keeps valid (first valid) step

section Operations

variable {issued : Command → Prop} {R : World MemoryHost → World MemoryHost → Prop}
  (lasting : Lasting issued R) {env : Environment MemoryHost}
  (heard : ∀ {entry w w'}, env.respond entry w = some w' → R w w')
  {a w w' : World MemoryHost} {s h : Nat}

include lasting

theorem once {c : World MemoryHost} (step : Step issued w w c) : R w c :=
  lasting.step (lasting.refl w) step

include heard

theorem bears : Bears issued env R where
  refl := lasting.refl
  trans := lasting.trans
  heard := heard
  move before move := lasting.step before move.toStep
  during last :=
    lasting.step (lasting.step (lasting.trans (lasting.once (.hold _)) last) (.leave _)) (.release _)

theorem log {logger : Option Nat} {line : String} (run : env.log logger line w = some w') : R w w' :=
  (lasting.bears heard).log run

theorem emit {event : Event} (run : env.emit s event w = some w') : R w w' :=
  (lasting.bears heard).tell (fun entry silent => lasting.once (.record entry silent)) run

theorem produce {generator logger : Option Nat} {config : Config} {result}
    (run : env.produce generator h logger config w = some (result,w')) : R w w' :=
  (lasting.bears heard).produce (fun written => lasting.once (.host h _ (MemoryHost.write_sameWatches written))) run

/-- The run belongs to an operation that found no run in flight in the world `a`. -/
theorem runOnce (idle : (a.session s).inFlight = false) (before : R a w)
    (run : env.runOnce s w = some w') : R a w' := by
  rw [Environment.runOnce] at run
  split at run
  · cases run; exact before
  next context found =>
    have adopted := Session.config_of_context? found
    simp only [Option.bind_eq_bind,Option.bind_eq_some_iff] at run
    obtain ⟨⟨result,made⟩,produce,run⟩ := run
    have done := lasting.trans (lasting.step before (.start s _ idle adopted)) (lasting.produce heard produce)
    split at run
    all_goals
      simp only [Option.bind_eq_some_iff] at run
      obtain ⟨told,emit,run⟩ := run
      cases run
      exact lasting.step (lasting.trans done (lasting.emit heard emit)) (.finish s _ idle)

theorem drain (idle : (a.session s).inFlight = false) (before : R a w)
    (run : env.drain s w = some w') : R a w' := by
  refine Environment.drain.partial_correctness env s (fun w w' => R a w → R a w') ?_ w w' run before
  intro drain ih w w' run before
  split at run
  · simp only [Option.bind_eq_bind,Option.bind_eq_some_iff] at run
    obtain ⟨next,once,run⟩ := run
    exact ih _ _ run (lasting.runOnce heard idle (lasting.step before (.heed s idle)) once)
  · cases run; exact before

theorem regenerate (run : env.regenerate s w = some w') : R w w' := by
  have asked := lasting.once (.request (a := w) s)
  by_cases idle : (w.session s).inFlight = false
  · refine Environment.attempt.partial_correctness env s (fun b b' => R w b → R w b') ?_ _ w' run asked
    intro attempt ih b b' run before
    split at run
    · cases run; exact before
    · simp only [Option.bind_eq_bind,Option.bind_eq_some_iff] at run
      obtain ⟨drained,drain,run⟩ := run
      have done := lasting.step
        (lasting.drain heard idle (lasting.step before (.lock s idle)) drain) (.unlock s idle)
      split at run
      · exact ih _ _ run done
      · cases run; exact done
  · rw [Environment.regenerate_of_inFlight env (by simpa using idle)] at run
    cases run
    exact asked

theorem carries : Carries issued env R where
  toBears := lasting.bears heard
  rewatch before logged watches ready _ :=
    lasting.step (lasting.trans before logged) (.rewatch _ _ _ watches ready)
  regenerate run := lasting.regenerate heard run

theorem install (adopts : ∃ command, issued command ∧ command.Adopts s)
    (run : env.install s w = some w') : R w w' := (lasting.carries heard).install adopts run

theorem ask {baseline : Resolver} {query : Query} {layers result}
    (watches : ∀ s, ∃ command, issued command ∧ command.Watches s)
    (run : env.ask baseline query layers w = some (result,w')) : R w w' :=
  (lasting.carries heard).ask watches run

theorem perform {command : Command} {reply : Reply} (issues : issued command)
    (run : env.perform command w = some (reply,w')) : R w w' :=
  (lasting.carries heard).perform issues run

end Operations

end Lasting

/-- One world comes after another while such commands are carried out, be it in the middle of one. -/
inductive Later (issued : Command → Prop) : World MemoryHost → World MemoryHost → Prop where
  | refl (w : World MemoryHost) : Later issued w w
  | trans {a b c : World MemoryHost} (first : Later issued a b) (next : Later issued b c) : Later issued a c
  | step {a b c : World MemoryHost} (before : Later issued a b) (step : Step issued a b c) : Later issued a c

theorem Later.lasting (issued : Command → Prop) : Lasting issued (Later issued) := ⟨.refl,.trans,.step⟩

theorem Lasting.later {issued : Command → Prop} {R : World MemoryHost → World MemoryHost → Prop}
    (lasting : Lasting issued R) {a b : World MemoryHost} (later : Later issued a b) : R a b := by
  induction later with
  | refl w => exact lasting.refl w
  | trans first next before after => exact lasting.trans before after
  | step before step ih => exact lasting.step ih step

/-- Collaborators that change nothing except by issuing such commands. -/
def Environment.Issues (env : Environment MemoryHost) (issued : Command → Prop) : Prop :=
  ∀ {R}, Lasting issued R → ∀ {entry w w'}, env.respond entry w = some w' → R w w'

/-- However deep scripts set off scripts. -/
theorem Environment.scripted_issues {issued : Command → Prop} {behaviour : Behaviour}
    (issues : ∀ entry w, (behaviour entry w).Issues issued) (tools : Toolchain) (depth : Nat) :
    (Environment.scripted tools behaviour depth).Issues issued := by
  intro R lasting entry w w' run
  exact (Carries.scripted lasting.refl (fun _ _ heard => lasting.carries heard) issues depth).heard run

/-- What every step keeps holds between the start and the end of a command. -/
theorem perform_lasting {issued : Command → Prop} {R : World MemoryHost → World MemoryHost → Prop}
    (lasting : Lasting issued R) {env : Environment MemoryHost} (issues : env.Issues issued)
    {command : Command} {reply : Reply} {w w' : World MemoryHost} (allowed : issued command)
    (run : env.perform command w = some (reply,w')) : R w w' :=
  lasting.perform (issues lasting) allowed run

/-- Nothing is watched, adopted or laid over a resolver yet, nor is anything at work. -/
structure World.Fresh (w : World MemoryHost) : Prop where
  holds : w.holds = []
  sessions : ∀ s, w.session s = {sink := (w.session s).sink}
  recorders : ∀ r, w.watches (.recorder r) = []
  hosts : ∀ h, (w.host h).watches = [] ∧ (w.host h).opened = 0 ∧ (w.host h).closed = 0

/-- Commands lead from one world to another, whatever the collaborators do in the meantime. -/
inductive Leads : World MemoryHost → World MemoryHost → Prop where
  | refl (w : World MemoryHost) : Leads w w
  | perform {a b c : World MemoryHost} {tools : Toolchain} {behaviour : Behaviour} {depth : Nat}
      {command : Command} {reply : Reply} (before : Leads a b)
      (run : (Environment.scripted tools behaviour depth).perform command b = some (reply,c)) : Leads a c

def Reachable (w : World MemoryHost) : Prop := ∃ start : World MemoryHost, start.Fresh ∧ Leads start w

theorem Script.issues_any (script : Script) : script.Issues fun _ => True := by
  induction script with
  | done => trivial
  | issue command next ih => exact ⟨trivial,ih⟩

theorem Environment.scripted_issues_any (tools : Toolchain) (behaviour : Behaviour) (depth : Nat) :
    (Environment.scripted tools behaviour depth).Issues fun _ => True :=
  scripted_issues (fun _ _ => Script.issues_any _) tools depth

/-- Commands of some kind lead from one world to another, and no others are issued in the meantime. -/
inductive LeadsBy (issued : Command → Prop) : World MemoryHost → World MemoryHost → Prop where
  | refl (w : World MemoryHost) : LeadsBy issued w w
  | perform {a b c : World MemoryHost} {tools : Toolchain} {behaviour : Behaviour} {depth : Nat}
      {command : Command} {reply : Reply} (before : LeadsBy issued a b) (allowed : issued command)
      (issues : ∀ entry w, (behaviour entry w).Issues issued)
      (run : (Environment.scripted tools behaviour depth).perform command b = some (reply,c)) : LeadsBy issued a c

theorem LeadsBy.leads {issued : Command → Prop} {a b : World MemoryHost} (leads : LeadsBy issued a b) :
    Leads a b := by
  induction leads with
  | refl => exact .refl a
  | perform before allowed issues run ih => exact .perform ih run

theorem Leads.by_any {a b : World MemoryHost} (leads : Leads a b) : LeadsBy (fun _ => True) a b := by
  induction leads with
  | refl => exact .refl a
  | perform before run ih => exact .perform ih trivial (fun _ _ => Script.issues_any _) run

theorem Carries.leadsBy {issued : Command → Prop} {R : World MemoryHost → World MemoryHost → Prop}
    (refl : ∀ w, R w w)
    (carries : ∀ env : Environment MemoryHost,
      (∀ {entry w w'}, env.respond entry w = some w' → R w w') → Carries issued env R)
    {a b : World MemoryHost} (leads : LeadsBy issued a b) : R a b := by
  induction leads with
  | refl => exact refl a
  | @perform b c tools behaviour depth command reply before allowed issues run ih =>
    have carried : Carries issued (Environment.scripted tools behaviour depth) R :=
      Carries.scripted refl (fun env _ heard => carries env heard) issues depth
    exact carried.trans ih (carried.perform allowed run)

theorem Lasting.leadsBy {issued : Command → Prop} {R : World MemoryHost → World MemoryHost → Prop}
    (lasting : Lasting issued R) {a b : World MemoryHost} (leads : LeadsBy issued a b) : R a b :=
  Carries.leadsBy lasting.refl (fun _ heard => lasting.carries heard) leads

theorem Lasting.leads {R : World MemoryHost → World MemoryHost → Prop} (lasting : Lasting (fun _ => True) R)
    {a b : World MemoryHost} (leads : Leads a b) : R a b := lasting.leadsBy leads.by_any

end Phrasebook
