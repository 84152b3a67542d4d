import Phrasebook.Proofs.Session.Ruling

/-! What one regeneration comes to while collaborators only listen: a run is counted, one event says how it ended,
and the host of the session has the new output or is as it was. Nothing else has changed: `World.Ran`. -/
namespace Phrasebook

/-- What a session says of a run. -/
def Status.event : Status → Event
  | .written report => .regenerated report.output report.locales.length report.digest.short
  | .failed message => .regenerationFailed message

/-- The status of a run that came to this. -/
def Status.ofResult : Except RunFault Report → Status
  | .ok report => .written report
  | .error fault => .failed fault.message

/-- How a run has ended: all of what was generated was written, or nothing, and the first fault is known. -/
def Toolchain.Yields (tools : Toolchain) (config : Config) (before after : MemoryHost) : Status → Prop
  | .written report => tools.Writes config before after report
  | .failed message => after = before ∧
      ∃ fault, tools.FirstFault .types config before fault ∧ message = RunFault.message fault

namespace World

variable {s : Nat} {a b c w : World MemoryHost}

/-- The worlds differ by remarks that no event sink hears, by how often the session's generator was called, and by
what has become of some hosts. -/
structure Murmurs (s : Nat) (p : Nat → Prop) (a b : World MemoryHost) : Prop where
  spared : ∀ t, t ≠ s → b.session t = a.session t
  own : ∃ calls, b.session s = {a.session s with generations := calls}
  hosts : ∀ h, ¬p h → b.host h = a.host h
  hooks : b.hooks = a.hooks
  recorders : b.recorders = a.recorders
  sinks : b.sinks = a.sinks
  emissions : b.emissions = a.emissions
  histories : ∀ t, b.history t = a.history t

namespace Murmurs

variable {p : Nat → Prop}

theorem refl (w : World MemoryHost) : Murmurs s p w w :=
  ⟨fun _ _ => rfl,⟨_,rfl⟩,fun _ _ => rfl,rfl,rfl,rfl,rfl,fun _ => rfl⟩

theorem trans (first : Murmurs s p a b) (next : Murmurs s p b c) : Murmurs s p a c where
  spared t other := (next.spared t other).trans (first.spared t other)
  own := by
    obtain ⟨calls,before⟩ := first.own
    obtain ⟨more,after⟩ := next.own
    exact ⟨more,by rw [after,before]⟩
  hosts h apart := (next.hosts h apart).trans (first.hosts h apart)
  hooks := next.hooks.trans first.hooks
  recorders := next.recorders.trans first.recorders
  sinks := next.sinks.trans first.sinks
  emissions := next.emissions.trans first.emissions
  histories t := (next.histories t).trans (first.histories t)

theorem setHost (h : Nat) (state : MemoryHost) (w : World MemoryHost) : Murmurs s (· = h) w (w.setHost h state) where
  spared _ _ := rfl
  own := ⟨_,rfl⟩
  hosts g other := by simp [Ne.symm other]
  hooks := rfl
  recorders := rfl
  sinks := rfl
  emissions := rfl
  histories _ := rfl

theorem record {entry : Entry} (silent : ∀ t, entry.milestone? t = none) (unheard : entry.emission? = none) :
    Murmurs s p w (w.record entry) where
  spared _ _ := rfl
  own := ⟨_,rfl⟩
  hosts _ _ := rfl
  hooks := rfl
  recorders := rfl
  sinks := rfl
  emissions := by rw [emissions_record,unheard]; exact List.append_nil _
  histories t := by simp [silent t]

theorem say (logger : Option Nat) (line : String) (w : World MemoryHost) : Murmurs s p w (w.say logger line) := by
  cases logger with
  | none => exact .refl w
  | some logger => exact .record (fun _ => rfl) rfl

end Murmurs

/-- The generator of a session is called. -/
def calling (s : Nat) (w : World MemoryHost) : World MemoryHost :=
  let called := w.modify s fun session => {session with generations := session.generations + 1}
  called.record (.generating s (called.session s).generations)

theorem murmurs_calling (s : Nat) (p : Nat → Prop) (w : World MemoryHost) : Murmurs s p w (w.calling s) := by
  have called : Murmurs s p w (w.modify s fun session => {session with generations := session.generations + 1}) := by
    refine ⟨fun t other => ?_,⟨(w.session s).generations + 1,by simp⟩,by simp,by simp,by simp,rfl,rfl,by simp⟩
    simp [Ne.symm other]
  exact called.trans (.record (fun _ => rfl) rfl)

/-- A session has made one run, which came to this. Other sessions have no part in it, nor have other hosts. -/
structure Ran (tools : Toolchain) (s : Nat) (context : Context) (status : Status) (news : List Milestone)
    (a b : World MemoryHost) : Prop where
  spared : ∀ t, t ≠ s → b.session t = a.session t
  own : ∃ calls, b.session s = {a.session s with
    requested := false,runs := (a.session s).runs + 1,last := some status,generations := calls}
  elsewhere : ∀ h, h ≠ context.host → b.host h = a.host h
  yields : tools.Yields context.config (a.host context.host) (b.host context.host) status
  hooks : b.hooks = a.hooks
  recorders : b.recorders = a.recorders
  sinks : b.sinks = a.sinks
  emissions : b.emissions = a.emissions ++ ((a.session s).sink.map (·,status.event)).toList
  own_history : b.history s = a.history s ++ news
  histories : ∀ t, t ≠ s → b.history t = a.history t

/-- Whatever a run does not change about the session itself. -/
theorem Ran.same {tools : Toolchain} {context : Context} {status : Status} {news : List Milestone}
    (ran : Ran tools s context status news a b) {α : Type} (shown : Session → α)
    (bearing : ∀ session calls, shown {session with
      requested := false,runs := session.runs + 1,last := some status,generations := calls} = shown session) :
    shown (b.session s) = shown (a.session s) := by
  obtain ⟨calls,own⟩ := ran.own
  rw [own,bearing]

theorem Ran.leave {tools : Toolchain} {context : Context} {status : Status} {news : List Milestone}
    (ran : Ran tools s context status news (a.hold s) b) : Ran tools s context status news a (b.leave s) := {ran with}

theorem Ran.bearing {tools : Toolchain} {context : Context} {status : Status} {news : List Milestone}
    (ran : Ran tools s context status news a b) (t : Nat) : (b.session t).bearing = (a.session t).bearing := by
  by_cases own : t = s
  · rw [own,ran.same Session.bearing fun _ _ => rfl]
  · rw [ran.spared t own]

end World

namespace Environment.Quiet

variable {env : Environment MemoryHost} (quiet : env.Quiet) {s : Nat} {w : World MemoryHost} {context : Context}

include quiet

theorem announceCall_eq (s : Nat) (w : World MemoryHost) : env.announceCall (some s) w = some (w.calling s) :=
  quiet _ _

theorem render_murmurs (s h : Nat) (p : Nat → Prop) (config : Config) (w : World MemoryHost) :
    ∃ v, World.Murmurs s p w v ∧ v.host h = w.host h ∧
      env.render (some s) h config .types w = some (env.toolchain.rendering .types config (v.host h),v) := by
  rw [Environment.render]
  cases loaded : env.toolchain.load config.localesDirectory (w.host h) with
  | error fault => exact ⟨w,.refl w,rfl,by rw [Toolchain.rendering,loaded]⟩
  | ok entries =>
    have same : (w.calling s).host h = w.host h := by simp [World.calling]
    refine ⟨w.calling s,World.murmurs_calling s p w,same,?_⟩
    simp only [quiet.announceCall_eq,Option.bind_eq_bind,Option.bind_some,Toolchain.rendering,same,loaded]
    cases env.toolchain.generate entries .types config.mode <;> rfl

omit quiet in
theorem save_murmurs {h : Nat} {output : Path} {rendered : Except RunFault (List Locale.Entry × String)}
    {result : Except RunFault Report} {u saved : World MemoryHost} (run : save h output rendered u = (result,saved)) :
    World.Murmurs s (· = h) u saved := by
  unfold save at run
  split at run
  · cases run; exact .refl u
  · split at run
    · cases run; exact .refl u
    · cases run; exact .setHost h _ u

/-- All that a run changes between its start and its end is the host that it writes to, and what that has come to
is known. -/
theorem produce_murmurs (s h : Nat) (logger : Option Nat) (config : Config) (w : World MemoryHost) :
    ∃ result v, env.produce (some s) h logger config w = some (result,v) ∧ World.Murmurs s (· = h) w v ∧
      env.toolchain.Yields config (w.host h) (v.host h) (.ofResult result) := by
  let said := w.say logger ("write file: " ++ config.outputPath.display)
  obtain ⟨u,next,same,render⟩ := quiet.render_murmurs s h (· = h) config said
  have before : World.Murmurs s (· = h) w u := (World.Murmurs.say logger _ w).trans next
  have unread : u.host h = w.host h := by rw [same,World.host_say]
  cases written : save h config.outputPath (env.toolchain.rendering .types config (u.host h)) u with
  | mk result saved =>
    obtain ⟨-,outcome⟩ := save_all_or_nothing written
    have made := before.trans (save_murmurs written)
    cases result with
    | ok report =>
      let done := saved.say logger ("write file succeed: " ++ config.outputPath.display)
      have noted : World.Murmurs s (· = h) done (done.record (.noted (.regenerated report))) :=
        .record (fun _ => rfl) rfl
      refine ⟨.ok report,_,?_,(made.trans (.say logger _ saved)).trans noted,?_⟩
      · simp [Environment.produce,quiet.log_eq,render,written,said,done]
      · change env.toolchain.Writes config _ _ report
        rw [World.host_record,World.host_say,← unread]
        exact outcome
    | error fault =>
      obtain ⟨rfl,first⟩ := outcome
      refine ⟨.error fault,_,?_,made.trans (.say logger ("write file failed: " ++ fault.message) saved),?_⟩
      · simp [Environment.produce,quiet.log_eq,render,written,said]
      · exact ⟨by simpa using unread,fault,unread ▸ first,rfl⟩

theorem runOnce_ran (ready : (w.session s).context? = some context) (heeded : (w.session s).requested = false) :
    ∃ v status, env.runOnce s w = some v ∧
      World.Ran env.toolchain s context status [.started context.config,.ended status] w v := by
  obtain ⟨result,made,produced,murmurs,yields⟩ :=
    quiet.produce_murmurs s context.host context.logger context.config (w.start s context.config)
  let status := Status.ofResult result
  have run : env.runOnce s w = some ((made.tell s status.event).finish s status) := by
    simp only [Environment.runOnce,ready,produced,Option.bind_eq_bind,Option.bind_some,quiet.emit_eq]
    cases result <;> rfl
  obtain ⟨calls,own⟩ := murmurs.own
  have mine : made.session s = {w.session s with runs := (w.session s).runs + 1,generations := calls} := by
    rw [own]
    simp [World.start]
  refine ⟨_,status,run,{
    spared := fun t other => ?_
    own := ⟨calls,?_⟩
    elsewhere := fun h other => ?_
    yields := by simpa [World.finish,World.start] using yields
    hooks := ?_
    recorders := ?_
    sinks := ?_
    emissions := ?_
    own_history := ?_
    histories := fun t other => ?_}⟩
  · simpa [World.finish,World.start,Ne.symm other] using murmurs.spared t other
  · simp [World.finish,mine,← heeded]
  · simpa [World.finish,World.start] using murmurs.hosts h other
  · simpa [World.finish,World.start] using murmurs.hooks
  · simpa [World.finish,World.start] using murmurs.recorders
  · have same : ((made.tell s status.event).finish s status).sinks = made.sinks := by
      change (made.tell s status.event).sinks = made.sinks
      unfold World.tell
      split <;> rfl
    exact same.trans murmurs.sinks
  · rw [World.finish,World.emissions_reach,World.emissions_tell,murmurs.emissions,World.start,World.emissions_reach,
      mine]
  · simp [World.finish,murmurs.histories,World.start]
  · simp [World.finish,murmurs.histories,World.start,Ne.symm other]

/-- A request is answered by one run. -/
theorem regenerate_ran (idle : (w.session s).inFlight = false) (ready : (w.session s).context? = some context) :
    ∃ v status, env.regenerate s w = some v ∧ World.Ran env.toolchain s context status
      [.requested,.started context.config,.ended status] w v := by
  have begun : ((((w.request s).lock s).heed s).session s).context? = some context := by
    simpa [World.request,World.lock,World.heed,Session.context?] using ready
  obtain ⟨v,status,run,ran⟩ := quiet.runOnce_ran begun (by simp [World.heed])
  obtain ⟨calls,own⟩ := ran.own
  have settled : (v.session s).requested = false := by rw [own]
  refine ⟨v.unlock s,status,Environment.regenerate_once env idle run settled,{
    spared := fun t other => ?_
    own := ⟨calls,?_⟩
    elsewhere := ran.elsewhere
    yields := ran.yields
    hooks := ran.hooks
    recorders := ran.recorders
    sinks := ran.sinks
    emissions := ?_
    own_history := ?_
    histories := fun t other => ?_}⟩
  · have spared := ran.spared t other
    simpa [World.unlock,World.request,World.lock,World.heed,Ne.symm other] using spared
  · rw [World.unlock,World.session_modify,if_pos rfl,own]
    simp [World.request,World.lock,World.heed,← idle]
  · have asked : (((w.request s).lock s).heed s).emissions = w.emissions := World.emissions_reach _ _ _ w
    have heard := ran.emissions
    rw [asked] at heard
    exact heard.trans (by simp [World.request,World.lock,World.heed])
  · have told := ran.own_history
    simpa [World.unlock,World.request,World.lock,World.heed] using told
  · have told := ran.histories t other
    simpa [World.unlock,World.request,World.lock,World.heed,Ne.symm other] using told

end Environment.Quiet
end Phrasebook
