import Phrasebook.Proofs.Session.Accounting
import Phrasebook.Proofs.Session.History

/-! Disposal of a session. No later command brings the session back (`closed_lasting`), but an operation
that was under way when it was disposed of may carry on with what it had read before. Whether it has
done so shows in the history: `disposal_final_iff`. -/
namespace Phrasebook

/-- A session is disposed of and has given up its options and its watches. -/
structure World.Closed (s : Nat) (w : World MemoryHost) : Prop where
  phase : (w.session s).phase = .disposed
  config : (w.session s).config = none
  watches : (w.session s).watches = []

/-- Nor does any host watch a file for it. -/
structure World.Released (s : Nat) (w : World MemoryHost) : Prop extends w.Closed s where
  hosts : ∀ h, ∀ watch ∈ (w.host h).watches, watch.subscriber ≠ .session s

namespace World.Closed

variable {s t : Nat} {a b c w w' : World MemoryHost}

theorem same (closed : w.Closed s) (phase : (w'.session s).phase = (w.session s).phase)
    (config : (w'.session s).config = (w.session s).config)
    (watches : (w'.session s).watches = (w.session s).watches) : w'.Closed s :=
  ⟨phase.trans closed.phase,config.trans closed.config,watches.trans closed.watches⟩

theorem modify (closed : w.Closed s) {f : Session → Session}
    (keeps : t = s → ∀ session, (f session).phase = session.phase ∧
      (f session).config = session.config ∧ (f session).watches = session.watches) : (w.modify t f).Closed s := by
  by_cases eq : t = s
  · obtain ⟨phase,config,watches⟩ := keeps eq (w.session s)
    exact closed.same (by simp [eq,phase]) (by simp [eq,config]) (by simp [eq,watches])
  · exact closed.same (by simp [eq]) (by simp [eq]) (by simp [eq])

theorem reach (closed : w.Closed s) {milestone : Milestone} {f : Session → Session}
    (keeps : t = s → ∀ session, (f session).phase = session.phase ∧
      (f session).config = session.config ∧ (f session).watches = session.watches) :
    (w.reach t milestone f).Closed s :=
  (closed.modify keeps).same rfl rfl rfl

theorem unwatch (closed : w.Closed s) (owner : Subscriber) : (w.unwatch owner).Closed s := by
  refine ⟨?_,?_,?_⟩
  all_goals
    rw [session_unwatch]
    split
  · exact closed.phase
  · exact closed.phase
  · exact closed.config
  · exact closed.config
  · rfl
  · exact closed.watches

theorem rewatch (closed : w.Closed s) {owner : Subscriber} (other : owner ≠ .session s) (h : Nat)
    (files : List Path) : (w.rewatch owner h files).2.Closed s := by
  rcases w.rewatch_eq owner h files with same | ⟨handles,same⟩ <;>
    exact closed.same (by simp [same,other]) (by simp [same,other]) (by simp [same,other])

theorem not_ready (closed : w.Closed s) : ¬(w.session s).context?.isSome := by
  simp [Session.isSome_context?_iff,closed.config]

/-- An operation that finds the session closed leaves it so. -/
theorem step {issued : Command → Prop} (before : a.Closed s) (closed : b.Closed s)
    (step : Step issued a b c) : c.Closed s := by
  cases step with
  | record | host | wrap | hold | leave => exact closed.same rfl rfl rfl
  | renewSink t =>
    have counted : ({b with sinks := b.sinks + 1} : World MemoryHost).Closed s := closed.same rfl rfl rfl
    exact counted.modify fun _ _ => ⟨rfl,rfl,rfl⟩
  | generate | lock | unlock | heed | introduce | install | drop =>
    exact closed.modify fun _ _ => ⟨rfl,rfl,rfl⟩
  | request | start | finish => exact closed.reach fun _ _ => ⟨rfl,rfl,rfl⟩
  | create t host hook logger options config creates live =>
    exact closed.reach fun here => absurd before.phase (here ▸ live)
  | configure t options config configures live =>
    exact closed.reach fun here => absurd closed.phase (here ▸ live)
  | activate t adopts ready => exact closed.reach fun here => absurd (here ▸ ready) before.not_ready
  | rewatch t context files watches ready =>
    refine closed.rewatch ?_ _ _
    rintro ⟨⟩
    exact before.not_ready (by simp [ready])
  | release t =>
    unfold World.release
    split
    · exact closed.unwatch _
    · exact closed
  | rewatchRecorder r =>
    have other : (.recorder r : Subscriber) ≠ .session s := by simp
    exact closed.rewatch other _ _
  | unwatchRecorder => exact closed.unwatch _
  | dispose t disposes live =>
    exact (closed.reach fun here => absurd closed.phase (here ▸ live)).unwatch _

end World.Closed

theorem closed_lasting (issued : Command → Prop) (s : Nat) :
    Lasting issued fun a b => a.Closed s → b.Closed s :=
  .ofInvariant fun before closed step => before.step closed step

theorem World.Closed.released {s : Nat} {w : World MemoryHost} (closed : w.Closed s)
    (accounted : w.Accounted) : w.Released s where
  toClosed := closed
  hosts h watch member subscribed := by
    have listed := Accounts.mem accounted member
    rw [subscribed,World.watches,closed.watches] at listed
    cases listed

/-- The files of the last watch set. -/
def Milestone.watching? : Milestone → Option (List Path)
  | .watching files => some files
  | _ => none

/-- Since a session was disposed of nothing has brought it back or left files watched. -/
structure Undisturbed (since : List Milestone) : Prop where
  unadopted : ∀ config, .adopted config ∉ since
  unhooked : .hooked ∉ since
  unwatched : (since.filterMap Milestone.watching?).getLast?.getD [] = []

theorem Outline.replay_watched (outline : Outline) {since : List Milestone} (last : .disposed ∉ since) :
    (outline.replay since).watched = (since.filterMap Milestone.watching?).getLast?.getD outline.watched := by
  induction since generalizing outline with
  | nil => rfl
  | cons first rest ih =>
    obtain ⟨other,last⟩ := not_or.mp (List.mem_cons.not.mp last)
    rw [replay_cons,ih _ last]
    cases first with
    | watching files => simp [redraw,Milestone.watching?,List.getLast?_cons]
    | disposed => exact absurd rfl other
    | _ => rfl

theorem Outline.replay_disposed (outline : Outline) {since : List Milestone} (last : .disposed ∉ since) :
    ((outline.replay since).disposed = true ∧ (outline.replay since).config = none) ↔
      (outline.disposed = true ∧ outline.config = none) ∧
        (∀ config, .adopted config ∉ since) ∧ .hooked ∉ since := by
  induction since generalizing outline with
  | nil => simp
  | cons first rest ih =>
    obtain ⟨other,last⟩ := not_or.mp (List.mem_cons.not.mp last)
    rw [replay_cons,ih _ last]
    cases first with
    | disposed => exact absurd rfl other
    | adopted config =>
      constructor
      · rintro ⟨⟨_,none⟩,_⟩
        cases none
      · rintro ⟨_,unadopted,_⟩
        exact absurd (by simp) (unadopted config)
    | _ => simp [redraw]

theorem World.closed_iff_outline {s : Nat} {w : World MemoryHost} : w.Closed s ↔
    ((w.session s).outline.disposed = true ∧ (w.session s).outline.config = none) ∧
      (w.session s).outline.watched = [] := by
  simp only [Session.outline,decide_eq_true_eq,List.map_eq_nil_iff]
  constructor
  · intro closed
    exact ⟨⟨closed.phase,closed.config⟩,closed.watches⟩
  · rintro ⟨⟨phase,config⟩,watches⟩
    exact ⟨phase,config,watches⟩

theorem Told.closed_iff {s : Nat} {a b : World MemoryHost} {before since : List Milestone}
    (told : Told s a b (before ++ .disposed :: since)) (last : .disposed ∉ since) :
    b.Closed s ↔ Undisturbed since := by
  have outline := told.outline
  rw [Outline.replay_append,Outline.replay_cons] at outline
  rw [World.closed_iff_outline,outline,Outline.replay_disposed _ last,Outline.replay_watched _ last]
  constructor
  · rintro ⟨⟨_,unadopted,unhooked⟩,unwatched⟩
    exact ⟨unadopted,unhooked,unwatched⟩
  · intro quiet
    exact ⟨⟨⟨rfl,rfl⟩,quiet.unadopted,quiet.unhooked⟩,quiet.unwatched⟩

/-- What is closed now is so for good. -/
theorem closed_final_iff {s : Nat} {w : World MemoryHost} (reached : Reachable w) :
    (∀ later, Leads w later → later.Released s) ↔ w.Closed s := by
  refine ⟨fun final => (final w (.refl w)).toClosed,?_⟩
  intro closed later leads
  exact ((closed_lasting _ s).leads leads closed).released
    ((World.accounted_lasting _).leads leads reached.accounted)

/-- Without a command under way that would have it adopt options or renew its watches, a session that is
disposed of stays undisturbed. -/
theorem undisturbed_of_caused {issued : Command → Prop} {s : Nat} {since : List Milestone}
    (caused : ∀ m ∈ since, m.Caused issued s)
    (spares : ∀ command, issued command → ¬command.Adopts s ∧ ¬command.Watches s) : Undisturbed since := by
  refine ⟨fun config member => ?_,fun member => ?_,?_⟩
  · obtain ⟨command,allowed,adopts⟩ := caused _ member
    exact (spares command allowed).1 adopts
  · obtain ⟨command,allowed,adopts⟩ := caused _ member
    exact (spares command allowed).1 adopts
  · cases last : (since.filterMap Milestone.watching?).getLast? with
    | none => rfl
    | some files =>
      obtain ⟨m,member,watching⟩ := List.mem_filterMap.mp (List.mem_of_getLast? last)
      cases m with
      | watching set =>
        cases watching
        apply (caused _ member).resolve_right
        rintro ⟨command,allowed,watches⟩
        exact (spares command allowed).2 watches
      | _ => cases watching

section Commands

variable {tools : Toolchain} {behaviour : Behaviour} {depth s : Nat} {command : Command} {reply : Reply}
  {w w' : World MemoryHost} {before since : List Milestone} (reached : Reachable w)
  (run : (Environment.scripted tools behaviour depth).perform command w = some (reply,w'))
  (disposed : w'.history s = w.history s ++ before ++ .disposed :: since) (last : .disposed ∉ since)

include run disposed last

theorem closed_after_iff : w'.Closed s ↔ Undisturbed since := by
  obtain ⟨news,told⟩ := (history_tells (fun _ => True) s).leads (.perform (.refl w) run)
  have whole : news = before ++ .disposed :: since := by
    rw [told.history,List.append_assoc] at disposed
    exact List.append_cancel_left disposed
  exact (whole ▸ told).closed_iff last

include reached

/-- A command during which a session is disposed of leaves it so for good if and only if, since then,
the session has neither adopted options nor been laid over a resolver nor left files watched. -/
theorem disposal_final_iff : (∀ later, Leads w' later → later.Released s) ↔ Undisturbed since := by
  obtain ⟨start,fresh,leads⟩ := reached
  exact (closed_final_iff ⟨start,fresh,.perform leads run⟩).trans (closed_after_iff run disposed last)

/-- Regenerations and edits, for one, do not stand in the way of a disposal. -/
theorem disposal_final_of_spares (spares : ¬command.Adopts s ∧ ¬command.Watches s)
    (issues : ∀ entry w, (behaviour entry w).Issues fun command => ¬command.Adopts s ∧ ¬command.Watches s) :
    ∀ later, Leads w' later → later.Released s := by
  obtain ⟨start,fresh,leads⟩ := reached
  obtain ⟨news,history,caused⟩ := perform_lasting (history_caused _ s)
    (Environment.scripted_issues issues tools depth) spares run
  have whole : news = before ++ .disposed :: since := by
    rw [history,List.append_assoc] at disposed
    exact List.append_cancel_left disposed
  have quiet : Undisturbed since := undisturbed_of_caused (fun m member => caused m (by simp [whole,member]))
    fun _ => id
  exact (closed_final_iff ⟨start,fresh,.perform leads run⟩).mpr ((closed_after_iff run disposed last).mpr quiet)

end Commands

section Interrupted

/-- A host with one locale file, and a session that has yet to be given options. -/
def World.vacant : World MemoryHost :=
  {hosts := ⟨[{files := [(⟨"/p/locales/en.yaml"⟩,"a: b")]}]⟩
   hooks := ⟨[{baseline := some fun query => .ok (query.names.map fun _ => none)}]⟩
   sessions := ⟨[{sink := some 0}]⟩
   sinks := 1}

def plainOptions : Json := .object
  [("moduleName",.string "i18n"),("localesDirectory",.string "/p/locales"),("outputPath",.string "/p/src/i18n.d.ts")]

def plainContext : Context := ⟨0,some 0,⟨"i18n",⟨"/p/locales"⟩,⟨"/p/src/i18n.d.ts"⟩,.normal⟩⟩

/-- The session has adopted the options and intercepts resolution. -/
def World.manned : World MemoryHost :=
  {World.vacant with
    hooks := ⟨[{baseline := some fun query => .ok (query.names.map fun _ => none),layers := [.session 0]}]⟩
    sessions := ⟨[{
      phase := .active,
      host := some 0,
      logger := some 0,
      hook := some 0,
      sink := some 0,
      config := some plainContext.config,
      installed := true}]⟩
    trace := [
      .logged 0 ("create plugin: " ++ plainOptions.text),
      .reached 0 (.adopted plainContext.config),
      .emitted 0 (.activated "i18n"),
      .logged 0 "hook resolve module",
      .reached 0 .hooked,
      .emitted 0 .resolverHooked]}

/-- A regeneration that is over after one run. -/
def Environment.regenerateOnce (env : Environment MemoryHost) (s : Nat) (w : World MemoryHost) :
    Option (World MemoryHost) := do
  let v ← env.runOnce s (((w.request s).lock s).heed s)
  if (w.session s).inFlight || (v.session s).requested then none else some (v.unlock s)

theorem Environment.regenerate_of_once {env : Environment MemoryHost} {s : Nat} {w v : World MemoryHost}
    (run : env.regenerateOnce s w = some v) : env.regenerate s w = some v := by
  simp only [regenerateOnce,Option.bind_eq_bind,Option.bind_eq_some_iff] at run
  obtain ⟨u,once,run⟩ := run
  split at run
  · contradiction
  next settled =>
    simp only [Bool.or_eq_true,not_or,Bool.not_eq_true] at settled
    cases run
    exact env.regenerate_once settled.1 once settled.2

/-- The generator disposes of the session, and then fails. -/
def Environment.quitting : Environment MemoryHost :=
  .scripted ⟨fun _ => .ok default,fun _ _ _ => .error ""⟩
    (fun entry _ =>
      match entry with
      | .generating _ _ => .issue (.dispose 0) fun _ => .done
      | _ => .done) 1

theorem World.vacant_fresh : World.vacant.Fresh := by
  refine ⟨rfl,fun s => ?_,fun _ => rfl,fun h => ?_⟩
  · cases s <;> rfl
  · cases h <;> exact ⟨rfl,rfl,rfl⟩

theorem manned_reachable : Reachable World.manned := by
  have run : Environment.quitting.perform (.create 0 (some 0) 0 0 plainOptions) .vacant =
      some (.service 0,.manned) := by rfl
  exact ⟨World.vacant,World.vacant_fresh,.perform (.refl _) run⟩

theorem manned_held : (World.manned.session 0).dropped = false := by decide +kernel

/-- What the session goes through when it is disposed of during a run. -/
def abandonment : List Milestone :=
  [.requested,.started plainContext.config,.disposed,.watching [],.ended (.failed "generation failed: ")]

/-- A regeneration watches nothing, so that it does no harm if the session is disposed of meanwhile. -/
theorem abandoned_final : ∃ w', Environment.quitting.perform (.regenerate 0) .manned = some (.done,w') ∧
    ∀ later, Leads w' later → later.Released 0 := by
  have ran : (Environment.quitting.regenerateOnce 0 .manned).any (fun v =>
      v.history 0 = World.manned.history 0 ++ abandonment) = true := by
    decide +kernel
  obtain ⟨v,once,history⟩ := (Option.any_eq_true _ _).mp ran
  have run : Environment.quitting.perform (.regenerate 0) .manned = some (.done,v) := by
    simp [Environment.perform,Environment.onSession,manned_held,Environment.regenerate_of_once once]
  have disposed : v.history 0 = World.manned.history 0 ++ [.requested,.started plainContext.config] ++
      .disposed :: [.watching [],.ended (.failed "generation failed: ")] := by
    rw [of_decide_eq_true history,List.append_assoc]
    rfl
  exact ⟨v,run,(disposal_final_iff manned_reachable run disposed (by simp)).mpr ⟨by simp,by simp,rfl⟩⟩

/-- A refresh on which the locale files have changed. -/
theorem Environment.refresh_of_changed {env : Environment MemoryHost} {s : Nat} {w noted made w' : World MemoryHost}
    {context : Context} {files : List Path} (active : (w.session s).phase = .active)
    (ready : (w.session s).context? = some context)
    (present : Host.directoryExists context.config.localesDirectory (w.host context.host) = true)
    (listed : Host.list context.config.localesDirectory (w.host context.host) = .ok files)
    (changed : refresh.samePaths files ((w.session s).watches.map (·.path)) = false)
    (log : env.log context.logger "locale files changed" w = some noted)
    (regenerate : env.regenerate s noted = some made)
    (watch : env.refreshWatches s context made = some (.ok (),w')) : env.refresh s w = some (.ok true,w') := by
  simp [refresh,active,ready,present,listed,changed,log,regenerate,watch]

/-- A refresh on which the locale files have changed, with a regeneration of one run. -/
def Environment.refreshOnce (env : Environment MemoryHost) (s : Nat) (w : World MemoryHost) :
    Option (World MemoryHost) := do
  let context ← (w.session s).context?
  let files ← (Host.list context.config.localesDirectory (w.host context.host)).toOption
  if (w.session s).phase = .active ∧ (w.session s).dropped = false ∧
      Host.directoryExists context.config.localesDirectory (w.host context.host) = true ∧
      refresh.samePaths files ((w.session s).watches.map (·.path)) = false then
    let made ← env.regenerateOnce s (← env.log context.logger "locale files changed" w)
    match ← env.refreshWatches s context made with
    | (.ok _,v) => some v
    | (.error _,_) => none
  else none

theorem Environment.refresh_of_once {env : Environment MemoryHost} {s : Nat} {w v : World MemoryHost}
    (run : env.refreshOnce s w = some v) :
    env.perform (.refresh s) w = some (.flag true,v) := by
  simp only [refreshOnce,Option.bind_eq_bind,Option.bind_eq_some_iff] at run
  obtain ⟨context,ready,files,listed,run⟩ := run
  split at run
  next conditions =>
    obtain ⟨active,held,present,changed⟩ := conditions
    simp only [Option.bind_eq_some_iff] at run
    obtain ⟨noted,log,made,once,⟨result,watched⟩,watch,run⟩ := run
    cases result with
    | error fault => cases run
    | ok =>
      cases run
      have found : Host.list context.config.localesDirectory (w.host context.host) = .ok files := by
        cases same : Host.list context.config.localesDirectory (w.host context.host) with
        | error fault => rw [same] at listed; cases listed
        | ok others => rw [same] at listed; cases listed; rfl
      have refreshed := refresh_of_changed active ready present found changed log (regenerate_of_once once) watch
      simp [perform,onSession,held,refreshed,hostReply]
  · contradiction

/-- A refresh goes on to watch the locale files although the session was disposed of meanwhile. -/
theorem refresh_watches_disposed : Reachable World.manned ∧
    ∃ w', Environment.quitting.perform (.refresh 0) .manned = some (.flag true,w') ∧
      w'.history 0 = World.manned.history 0 ++ abandonment ++ [.watching [],.watching [⟨"/p/locales/en.yaml"⟩]] ∧
      (w'.session 0).watches = [⟨0,0,⟨"/p/locales/en.yaml"⟩⟩] ∧
      (w'.host 0).watches = [⟨0,⟨"/p/locales/en.yaml"⟩,.session 0,true⟩] := by
  have ran : (Environment.quitting.refreshOnce 0 .manned).any (fun w' =>
      w'.history 0 = World.manned.history 0 ++ abandonment ++ [.watching [],.watching [⟨"/p/locales/en.yaml"⟩]] ∧
      (w'.session 0).watches = [⟨0,0,⟨"/p/locales/en.yaml"⟩⟩] ∧
      (w'.host 0).watches = [⟨0,⟨"/p/locales/en.yaml"⟩,.session 0,true⟩]) = true := by
    decide +kernel
  obtain ⟨w',once,outcome⟩ := (Option.any_eq_true _ _).mp ran
  exact ⟨manned_reachable,w',Environment.refresh_of_once once,of_decide_eq_true outcome⟩

end Interrupted

end Phrasebook
