import Phrasebook.Proofs.Session.Reconfiguration
import Phrasebook.Proofs.Session.Resting
import Phrasebook.Proofs.Session.Retelling
import Phrasebook.Proofs.Session.Running

/-! New options are taken as a whole or not at all. Either all that is left of them is what was said about it, and
everything goes on as if they had never been given; or they are in force and have been run with, once:
`configure_atomic`. -/
namespace Phrasebook

namespace World

/-- The options were turned down. That was said, and nothing else has changed. -/
structure Declined (s : Nat) (options : Json) (w v : World MemoryHost) : Prop where
  remarks : ∃ logs told, v = {w with trace := w.trace ++ (logs ++ told)} ∧
    (∀ entry ∈ logs, ∃ logger line, entry = .logged logger line) ∧
    ((w.session s).phase = .disposed ∧ told = [] ∨
      (w.session s).phase ≠ .disposed ∧
        ∃ rejection, Config.check options ((w.session s).host.map w.host) = .error rejection ∧
          told = ((w.session s).sink.map (.emitted · (.reconfigurationRejected rejection.message))).toList)
  alike : w.Alike v

/-- The options are in force, the session has run with them once, and what it watches is as before. -/
structure Refitted (tools : Toolchain) (s : Nat) (config : Config) (w v : World MemoryHost) : Prop where
  adopted : (v.session s).config = some config
  live : (v.session s).phase ≠ .disposed
  platform : (v.session s).host = (w.session s).host ∧ (v.session s).hook = (w.session s).hook ∧
    (v.session s).logger = (w.session s).logger
  runs : (v.session s).runs = (w.session s).runs + 1
  run : ∃ h laid status, (w.session s).host = some h ∧ (laid = [] ∨ laid = [.hooked]) ∧
    v.history s =
      w.history s ++ (.adopted config :: laid ++ [.requested,.started config,.ended status]) ∧
    (v.session s).last = some status ∧ tools.Yields config (w.host h) (v.host h) status ∧
    ∀ g, g ≠ h → v.host g = w.host g
  watches : (v.session s).watches = (w.session s).watches
  hosts : ∀ h, (w.host h).SameWatches (v.host h)
  spared : ∀ t, t ≠ s → v.session t = w.session t

theorem say_eq (logger : Option Nat) (line : String) (w : World MemoryHost) :
    ∃ logs, w.say logger line = {w with trace := w.trace ++ logs} ∧
      ∀ entry ∈ logs, ∃ logger line, entry = .logged logger line := by
  cases logger with
  | none => exact ⟨[],by simp [say],by simp⟩
  | some logger => exact ⟨[.logged logger line],rfl,by simp⟩

theorem say_say_eq (logger : Option Nat) (first next : String) (w : World MemoryHost) :
    ∃ logs, (w.say logger first).say logger next = {w with trace := w.trace ++ logs} ∧
      ∀ entry ∈ logs, ∃ logger line, entry = .logged logger line := by
  obtain ⟨early,begun,logged⟩ := w.say_eq logger first
  obtain ⟨late,continued,logged'⟩ := (w.say logger first).say_eq logger next
  refine ⟨early ++ late,?_,List.forall_mem_append.mpr ⟨logged,logged'⟩⟩
  rw [continued,begun,List.append_assoc]

theorem host_said (logger : Option Nat) (line : String) (w : World MemoryHost) : (w.say logger line).host = w.host :=
  funext fun _ => w.host_say _ _ _

theorem tell_eq (s : Nat) (event : Event) (w : World MemoryHost) :
    w.tell s event = {w with trace := w.trace ++ ((w.session s).sink.map (.emitted · event)).toList} := by
  unfold tell
  cases (w.session s).sink with
  | none => simp
  | some sink => rfl

/-- The options are in force, and the session has said so. -/
def refitting (s : Nat) (config : Config) (w : World MemoryHost) : World MemoryHost :=
  ((w.say (w.session s).logger "config changed").adopt s config
    (if (w.session s).phase = .uninitialized then .validated else (w.session s).phase)).tell s
    (.reconfigured config.moduleName)

end World

theorem Toolchain.Yields.sameWatches {tools : Toolchain} {config : Config} {before after : MemoryHost}
    {status : Status} (yields : tools.Yields config before after status) : before.SameWatches after := by
  cases status with
  | written report =>
    rw [Writes.rest yields]
    exact ⟨rfl,rfl,rfl⟩
  | failed message =>
    obtain ⟨rfl,-⟩ := yields
    exact ⟨rfl,rfl,rfl⟩

namespace Environment.Quiet

variable {env : Environment MemoryHost} (quiet : env.Quiet) {s : Nat} {w : World MemoryHost} {options : Json}

include quiet

/-- Whether or not the session is laid over a resolver, it stays what it was otherwise. -/
theorem install_frame (s : Nat) (w : World MemoryHost) : ∃ v phase installed laid, env.install s w = some v ∧
    v.session s = {w.session s with phase := phase,installed := installed} ∧
    ((w.session s).phase ≠ .disposed → phase ≠ .disposed) ∧ (∀ t, t ≠ s → v.session t = w.session t) ∧
    (∀ h, v.host h = w.host h) ∧ (laid = [] ∨ laid = [.hooked]) ∧ v.history s = w.history s ++ laid := by
  have stays : ∃ v phase installed laid, some w = some v ∧
      v.session s = {w.session s with phase := phase,installed := installed} ∧
      ((w.session s).phase ≠ .disposed → phase ≠ .disposed) ∧ (∀ t, t ≠ s → v.session t = w.session t) ∧
      (∀ h, v.host h = w.host h) ∧ (laid = [] ∨ laid = [.hooked]) ∧ v.history s = w.history s ++ laid :=
    ⟨w,_,_,[],rfl,rfl,id,fun _ _ => rfl,fun _ => rfl,.inl rfl,by simp⟩
  simp only [Environment.install,quiet.log_eq,quiet.emit_eq,Option.bind_eq_bind,Option.bind_some]
  split
  · split
    · exact stays
    · split
      · refine ⟨_,.active,true,[.hooked],rfl,by simp [World.activate],by simp,fun t other => ?_,
          by simp [World.activate],.inr rfl,by simp [World.activate]⟩
        simp [World.activate,Ne.symm other]
      · refine ⟨_,(w.session s).phase,true,[],rfl,by simp,id,fun t other => ?_,by simp,.inl rfl,by simp⟩
        simp [Ne.symm other]
  · exact stays

theorem configure_refused (refused : (w.session s).phase = .disposed ∨
      ∃ rejection, Config.check options ((w.session s).host.map w.host) = .error rejection) :
    ∃ v, env.configure s options w = some (false,v) ∧ w.Declined s options v := by
  by_cases ended : (w.session s).phase = .disposed
  · obtain ⟨logs,said,logged⟩ := w.say_say_eq (w.session s).logger "config changed"
      "plugin disposed, ignoring new config"
    refine ⟨_,?_,⟨logs,[],rfl,logged,.inl ⟨ended,rfl⟩⟩,w.alike_trace _⟩
    simp [Environment.configure,quiet.log_eq,ended,said]
  · obtain ⟨rejection,rejected⟩ := refused.resolve_left ended
    obtain ⟨logs,said,logged⟩ := w.say_say_eq (w.session s).logger "config changed"
      ("reconfiguration rejected, continuing with prior config: " ++ rejection.message)
    refine ⟨_,?_,⟨logs,_,rfl,logged,.inr ⟨ended,rejection,rejected,rfl⟩⟩,w.alike_trace _⟩
    have checked : Config.check options
        ((w.session s).host.map (w.say (w.session s).logger "config changed").host) = .error rejection := by
      rw [World.host_said,rejected]
    simp only [Environment.configure,quiet.log_eq,quiet.emit_eq,Option.bind_eq_bind,Option.bind_some,
      World.session_say,ended,if_false,checked,said,World.tell_eq,List.append_assoc]

/-- Accepted options are in force before anything else is done with them. -/
theorem configure_eq {config : Config} (live : (w.session s).phase ≠ .disposed)
    (accepted : Config.check options ((w.session s).host.map w.host) = .ok config) :
    env.configure s options w =
      (env.install s (w.refitting s config)).bind fun u => (env.regenerate s u).bind fun v => some (true,v) := by
  have checked : Config.check options
      ((w.session s).host.map (w.say (w.session s).logger "config changed").host) = .ok config := by
    rw [World.host_said,accepted]
  simp only [Environment.configure,quiet.log_eq,quiet.emit_eq,Option.bind_eq_bind,Option.bind_some,
    World.session_say,live,if_false,checked]
  rfl

theorem configure_accepted {config : Config} (idle : (w.session s).inFlight = false)
    (live : (w.session s).phase ≠ .disposed)
    (accepted : Config.check options ((w.session s).host.map w.host) = .ok config) :
    ∃ v, env.configure s options w = some (true,v) ∧ w.Refitted env.toolchain s config v := by
  obtain ⟨h,placed⟩ : ∃ h, (w.session s).host = some h := by
    have manned := Config.manned_of_check accepted
    exact Option.isSome_iff_exists.mp (by simpa using manned)
  have mine : ((w.refitting s config).session s) = {w.session s with
      config := some config
      phase := if (w.session s).phase = .uninitialized then .validated else (w.session s).phase} := by
    simp [World.refitting,World.adopt]
  obtain ⟨u,later,installed,laid,install,own,lives,others,hosts,hooked,history⟩ :=
    quiet.install_frame s (w.refitting s config)
  have ready : (u.session s).context? = some ⟨h,(w.session s).logger,config⟩ := by
    rw [own,mine]
    simp [Session.context?,placed]
  obtain ⟨v,status,regenerate,ran⟩ := quiet.regenerate_ran (by rw [own,mine]; exact idle) ready
  have same (g : Nat) : u.host g = w.host g := (hosts g).trans (by simp [World.refitting,World.adopt])
  obtain ⟨calls,after⟩ := ran.own
  refine ⟨v,by rw [quiet.configure_eq live accepted,install,Option.bind_some,regenerate,Option.bind_some],{
    adopted := by rw [after,own,mine]
    live := ?_
    platform := by rw [after,own,mine]; exact ⟨rfl,rfl,rfl⟩
    runs := by rw [after,own,mine]
    run := ⟨h,laid,status,placed,hooked,?_,by rw [after],same h ▸ ran.yields,fun g other => ?_⟩
    watches := by rw [after,own,mine]
    hosts := fun g => ?_
    spared := fun t other => ?_}⟩
  · rw [after,own]
    refine lives ?_
    rw [mine]
    change (if (w.session s).phase = .uninitialized then _ else _) ≠ Phase.disposed
    split
    · simp
    · exact live
  · rw [ran.own_history,history]
    simp [World.refitting,World.adopt]
  · rw [ran.elsewhere g other,same]
  -- whatever has become of the run, it opens and closes no watches
  · by_cases here : g = h
    · subst here
      rw [← same]
      exact ran.yields.sameWatches
    · rw [ran.elsewhere g here,same]
      exact ⟨rfl,rfl,rfl⟩
  · rw [ran.spared t other,others t other]
    simp [World.refitting,World.adopt,Ne.symm other]

end Environment.Quiet

/-- A session adopts new options exactly if it is not disposed of and they pass on the host that it has. If not,
nothing comes of it but what is said; if so, they are in force and the session has run with them once, watching
what it watched before. -/
theorem configure_atomic {env : Environment MemoryHost} (quiet : env.Quiet) {w : World MemoryHost}
    (reached : Reachable w) (s : Nat) (options : Json) : ∃ adopted v, env.configure s options w = some (adopted,v) ∧
      (adopted = true ↔ (w.session s).phase ≠ .disposed ∧
        ∃ config, Config.check options ((w.session s).host.map w.host) = .ok config) ∧
      (adopted = false → w.Declined s options v) ∧
      (adopted = true → ∃ config, Config.check options ((w.session s).host.map w.host) = .ok config ∧
        w.Refitted env.toolchain s config v) := by
  by_cases ended : (w.session s).phase = .disposed
  · obtain ⟨v,run,declined⟩ := quiet.configure_refused (.inl ended)
    exact ⟨false,v,run,by simp [ended],fun _ => declined,by simp⟩
  · cases checked : Config.check options ((w.session s).host.map w.host) with
    | error rejection =>
      obtain ⟨v,run,declined⟩ := quiet.configure_refused (.inr ⟨rejection,checked⟩)
      exact ⟨false,v,run,by simp,fun _ => declined,by simp⟩
    | ok config =>
      obtain ⟨v,run,reconfigured⟩ := quiet.configure_accepted (reached.idle s) ended checked
      exact ⟨true,v,run,by simp [ended],by simp,fun _ => ⟨config,rfl,reconfigured⟩⟩

/-- Options that are none leave the session with what it has, and others take their place. -/
theorem manned_configures : Reachable World.manned ∧
    (∃ v, Environment.stamping.configure 0 .null .manned = some (false,v) ∧ World.manned.Declined 0 .null v) ∧
    ∃ v, Environment.stamping.configure 0 lazyOptions .manned = some (true,v) ∧
      World.manned.Refitted Environment.stamping.toolchain 0 lazyConfig v := by
  have refused : Config.check .null (some (World.manned.host 0)) = .error (.missing "moduleName") := by decide +kernel
  have accepted : Config.check lazyOptions (some (World.manned.host 0)) = .ok lazyConfig := by decide +kernel
  have here : (World.manned.session 0).host = some 0 := rfl
  refine ⟨manned_reachable,?_,?_⟩
  · obtain ⟨adopted,v,run,adopts,declined,-⟩ :=
      configure_atomic Environment.stamping_quiet manned_reachable 0 .null
    cases adopted with
    | false => exact ⟨v,run,declined rfl⟩
    | true =>
      obtain ⟨-,config,checked⟩ := adopts.mp rfl
      cases refused.symm.trans checked
  · obtain ⟨adopted,v,run,adopts,-,reconfigured⟩ :=
      configure_atomic Environment.stamping_quiet manned_reachable 0 lazyOptions
    have live : (World.manned.session 0).phase ≠ .disposed := by decide
    obtain rfl := adopts.mpr ⟨live,_,accepted⟩
    obtain ⟨config,checked,reconfigured⟩ := reconfigured rfl
    cases accepted.symm.trans checked
    exact ⟨v,run,reconfigured⟩

end Phrasebook
