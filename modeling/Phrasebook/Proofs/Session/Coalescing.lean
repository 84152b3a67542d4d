import Phrasebook.Proofs.Session.History

/-! Requests for a regeneration are coalesced: any number of them during one run is answered by one
more run, which starts when that one is over and sees the newest options. `calm_lasting` is about
what happens within a run, `drain_settles` about the runs in a row, `regenerate_coalesces` about a
request as a whole. -/
namespace Phrasebook

/-- A command that leaves a session its options and its host. -/
def Command.Spares (s : Nat) : Command → Prop
  | .dispose t | .drop t => t ≠ s
  | .create t platform _ _ _ => t = s → platform.isSome
  | _ => True

def Milestone.isRun : Milestone → Bool
  | .started _ | .ended _ => true
  | _ => false

/-- Regeneration of a session is left alone, except that it may be requested. -/
structure Calm (s : Nat) (a b : World MemoryHost) : Prop where
  inFlight : (b.session s).inFlight = (a.session s).inFlight
  ready : (a.session s).context?.isSome → (b.session s).context?.isSome
  news : ∃ news, b.history s = a.history s ++ news ∧ (∀ m ∈ news, m.isRun = false) ∧
    ((b.session s).requested = true ↔ (a.session s).requested = true ∨ .requested ∈ news)

namespace Calm

variable {s t : Nat} {a b c w : World MemoryHost}

theorem refl (w : World MemoryHost) : Calm s w w := ⟨rfl,id,[],by simp,by simp,by simp⟩

theorem trans (first : Calm s a b) (next : Calm s b c) : Calm s a c := by
  obtain ⟨news,history,quiet,asked⟩ := first.news
  obtain ⟨more,later,still,again⟩ := next.news
  refine ⟨next.inFlight.trans first.inFlight,next.ready ∘ first.ready,news ++ more,?_,?_,?_⟩
  · rw [later,history,List.append_assoc]
  · intro m member
    exact (List.mem_append.mp member).elim (quiet m) (still m)
  · rw [again,asked,List.mem_append,or_assoc]

/-- What a session's regeneration reads is as before. -/
theorem silent (history : b.history s = a.history s) (inFlight : (b.session s).inFlight = (a.session s).inFlight)
    (requested : (b.session s).requested = (a.session s).requested)
    (ready : (a.session s).context?.isSome → (b.session s).context?.isSome) : Calm s a b :=
  ⟨inFlight,ready,[],by simp [history],by simp,by simp [requested]⟩

theorem modify {f : Session → Session}
    (same : t = s → (f (w.session s)).inFlight = (w.session s).inFlight ∧
      (f (w.session s)).requested = (w.session s).requested ∧
      ((w.session s).context?.isSome → (f (w.session s)).context?.isSome)) : Calm s w (w.modify t f) := by
  by_cases eq : t = s
  · obtain ⟨inFlight,requested,ready⟩ := same eq
    refine silent rfl ?_ ?_ ?_ <;> simpa [eq]
  · refine silent rfl ?_ ?_ ?_ <;> simp [eq]

theorem reach {milestone : Milestone} {f : Session → Session} (other : milestone.isRun = false)
    (same : t = s → (f (w.session s)).inFlight = (w.session s).inFlight ∧
      ((f (w.session s)).requested = true ↔ (w.session s).requested = true ∨ milestone = .requested) ∧
      ((w.session s).context?.isSome → (f (w.session s)).context?.isSome)) :
    Calm s w (w.reach t milestone f) := by
  by_cases eq : t = s
  · obtain ⟨inFlight,requested,ready⟩ := same eq
    refine ⟨by simpa [eq],by simpa [eq],[milestone],by simp [eq],by simpa,?_⟩
    rw [World.session_reach,if_pos eq,requested,List.mem_singleton,eq_comm (a := milestone)]
  · refine silent ?_ ?_ ?_ ?_ <;> simp [eq]

theorem setWatches (owner : Subscriber) (handles : List Handle) : Calm s w (w.setWatches owner handles) := by
  cases owner with
  | session t => exact reach rfl fun _ => ⟨rfl,by simp,id⟩
  | recorder r => exact silent rfl rfl rfl id

theorem unwatch (owner : Subscriber) : Calm s w (w.unwatch owner) := by
  have closed : Calm s w (w.closeAll (w.watches owner)) := by
    refine silent ?_ ?_ ?_ ?_ <;> simp
  exact closed.trans (setWatches owner [])

theorem rewatch (owner : Subscriber) (h : Nat) (files : List Path) : Calm s w (w.rewatch owner h files).2 := by
  have opened : Calm s (w.unwatch owner) (World.openAll owner h files [] (w.unwatch owner)).2 := by
    refine silent ?_ ?_ ?_ ?_ <;> simp
  have closed := (unwatch (s := s) (w := w) owner).trans opened
  rcases w.rewatch_eq owner h files with same | ⟨handles,same⟩
  · exact same ▸ closed
  · exact same ▸ closed.trans (setWatches owner handles)

/-- No step of an operation that finds a run in flight touches that run. -/
theorem step (step : Step (Command.Spares s) a b c) (busy : (a.session s).inFlight = true) :
    Calm s b c := by
  have mine {t : Nat} (idle : (a.session t).inFlight = false) : t ≠ s := by
    rintro rfl
    simp [busy] at idle
  cases step with
  | record entry quiet => exact silent (by simp [quiet s]) rfl rfl id
  | host | wrap | hold | leave => exact silent rfl rfl rfl id
  | renewSink t =>
    refine silent rfl ?_ ?_ ?_ <;> rw [World.session_renewSink] <;> split <;>
      simp [Session.isSome_context?_iff]
  | generate t => exact modify fun _ => ⟨rfl,rfl,id⟩
  | request t => exact reach rfl fun _ => ⟨rfl,by simp,id⟩
  | lock t idle => exact modify fun same => absurd same (mine idle)
  | unlock t idle => exact modify fun same => absurd same (mine idle)
  | heed t idle => exact modify fun same => absurd same (mine idle)
  | start t config idle => refine silent ?_ ?_ ?_ ?_ <;> simp [World.start,mine idle]
  | finish t status idle => refine silent ?_ ?_ ?_ ?_ <;> simp [World.finish,mine idle]
  | introduce t host hook logger options spares =>
    exact modify fun same => ⟨rfl,rfl,by
      simp only [Session.isSome_context?_iff]
      exact fun ready => ⟨spares same,ready.2⟩⟩
  | create t host hook logger options config =>
    exact reach rfl fun _ => ⟨rfl,by simp,by simp +contextual [Session.isSome_context?_iff]⟩
  | configure t options config =>
    exact reach rfl fun _ => ⟨rfl,by simp,by simp +contextual [Session.isSome_context?_iff]⟩
  | install t => exact modify fun _ => ⟨rfl,rfl,id⟩
  | activate t => exact reach rfl fun _ => ⟨rfl,by simp,id⟩
  | rewatch t context files => exact rewatch _ _ _
  | release t =>
    unfold World.release
    split
    · exact unwatch _
    · exact refl b
  | rewatchRecorder => exact rewatch _ _ _
  | unwatchRecorder => exact unwatch _
  | dispose t disposes =>
    have other : t ≠ s := disposes.elim id id
    have retired : Calm s b (b.retire t) := reach rfl fun same => absurd same other
    exact retired.trans (unwatch _)
  | drop t => exact modify fun _ => ⟨rfl,rfl,id⟩

end Calm

/-- While a run is in flight, whatever is carried out leaves it alone. -/
theorem calm_lasting (s : Nat) :
    Lasting (Command.Spares s) fun a b => (a.session s).inFlight = true → Calm s a b where
  refl w _ := .refl w
  trans first next busy := (first busy).trans (next ((first busy).inFlight.trans busy))
  step first step busy := (first busy).trans (.step step busy)

/-- What happens to a session during a run. -/
structure Span where
  config : Config
  during : List Milestone
  status : Status

def Span.milestones (span : Span) : List Milestone :=
  .started span.config :: span.during ++ [.ended span.status]

/-- The requests for a regeneration of a session so far. -/
def World.requests (s : Nat) (w : World MemoryHost) : Nat := (w.history s).count .requested

/-- So many runs in a row come back, the last of which is the first without a request during it. -/
inductive Settles (env : Environment MemoryHost) (s : Nat) :
    Nat → World MemoryHost → World MemoryHost → Prop where
  | quiet {w v : World MemoryHost} (run : env.runOnce s (w.heed s) = some v)
      (none : v.requests s = w.requests s) : Settles env s 1 w v
  | again {i : Nat} {w u v : World MemoryHost} (run : env.runOnce s (w.heed s) = some u)
      (more : w.requests s < u.requests s) (rest : Settles env s i u v) : Settles env s (i + 1) w v

/-- Runs in a row. Each sees the newest options, and another one follows exactly if it was requested
in the meantime. -/
structure Row (s : Nat) (w v : World MemoryHost) (spans : List Span) : Prop where
  history : v.history s = w.history s ++ spans.flatMap Span.milestones
  runs : (v.session s).runs = (w.session s).runs + spans.length
  apart : ∀ span ∈ spans, ∀ m ∈ span.during, m.isRun = false
  newest : ∀ before span after, spans = before ++ span :: after →
    ((w.session s).outline.replay (before.flatMap Span.milestones)).config = some span.config
  followed : ∀ before span after, spans = before ++ span :: after →
    (.requested ∈ span.during ↔ after ≠ [])

theorem Outline.replay_runs (outline : Outline) {news : List Milestone} (quiet : ∀ m ∈ news, m.isRun = false) :
    (outline.replay news).runs = outline.runs := by
  induction news generalizing outline with
  | nil => rfl
  | cons first rest ih =>
    obtain ⟨other,others⟩ := List.forall_mem_cons.mp quiet
    rw [replay_cons,ih _ others]
    cases first <;> first | rfl | cases other

theorem Row.nil (s : Nat) (w : World MemoryHost) : Row s w w [] := by
  constructor <;> simp

theorem Row.cons {s : Nat} {w u v : World MemoryHost} {span : Span} {rest : List Span}
    (told : Told s w u span.milestones) (adopted : (w.session s).config = some span.config)
    (quiet : ∀ m ∈ span.during, m.isRun = false) (asked : .requested ∈ span.during ↔ rest ≠ [])
    (row : Row s u v rest) : Row s w v (span :: rest) where
  history := by rw [row.history,told.history,List.append_assoc,List.flatMap_cons]
  runs := by
    have one : (u.session s).runs = (w.session s).runs + 1 := by
      have runs := congrArg Outline.runs told.outline
      simpa [Span.milestones,Outline.redraw,Outline.replay_runs _ quiet,Session.outline] using runs
    rw [row.runs,one,List.length_cons]
    omega
  apart := List.forall_mem_cons.mpr ⟨quiet,row.apart⟩
  newest before later after split := by
    cases before with
    | nil => cases split; simpa [Session.outline]
    | cons first before =>
      obtain ⟨rfl,rest⟩ := List.cons.inj split
      have seen := row.newest before later after rest
      rwa [told.outline,← Outline.replay_append] at seen
  followed before later after split := by
    cases before with
    | nil => cases split; exact asked
    | cons first before => exact row.followed before later after (List.cons.inj split).2

/-- The same runs, seen from just before and just after. -/
theorem Row.between {s : Nat} {a b v w : World MemoryHost} {spans : List Span} (row : Row s w v spans)
    (first : Told s a w []) (last : Told s v b []) : Row s a b spans where
  history := by simp [last.history,row.history,first.history]
  runs := by
    have before := congrArg Outline.runs first.outline
    have after := congrArg Outline.runs last.outline
    simp only [Outline.replay_nil,Session.outline] at before after
    rw [after,row.runs,before]
  apart := row.apart
  newest := by simpa only [first.outline,Outline.replay_nil] using row.newest
  followed := row.followed

section Runs

variable {env : Environment MemoryHost} {s i : Nat} {w u v : World MemoryHost}
  (issues : env.Issues (Command.Spares s))

include issues

/-- A run goes from its start to its end without another one in between. -/
theorem runOnce_span (busy : (w.session s).inFlight = true) (ready : (w.session s).context?.isSome)
    (run : env.runOnce s w = some v) :
    (v.session s).inFlight = true ∧ (v.session s).context?.isSome ∧
    ∃ span : Span, v.history s = w.history s ++ span.milestones ∧
      (w.session s).config = some span.config ∧ (∀ m ∈ span.during, m.isRun = false) ∧
      ((v.session s).requested = true ↔ (w.session s).requested = true ∨ .requested ∈ span.during) := by
  obtain ⟨context,found⟩ := Option.isSome_iff_exists.mp ready
  have started : ((w.start s context.config).session s).inFlight = true := by simpa [World.start]
  obtain ⟨last,status,calm,rfl⟩ : ∃ last status, Calm s (w.start s context.config) last ∧
      v = last.finish s status := by
    simp only [Environment.runOnce,found,Option.bind_eq_bind,Option.bind_eq_some_iff] at run
    obtain ⟨⟨result,made⟩,produce,run⟩ := run
    have done := (calm_lasting s).produce (issues (calm_lasting s)) produce started
    split at run
    all_goals
      simp only [Option.bind_eq_some_iff] at run
      obtain ⟨told,emit,run⟩ := run
      cases run
      have emitted := (calm_lasting s).emit (issues (calm_lasting s)) emit (done.inFlight.trans started)
      exact ⟨told,_,done.trans emitted,rfl⟩
  obtain ⟨during,history,quiet,asked⟩ := calm.news
  refine ⟨?_,?_,⟨context.config,during,status⟩,?_,Session.config_of_context? found,quiet,?_⟩
  · simpa [World.finish] using calm.inFlight.trans started
  · have kept := calm.ready
    simp only [World.start,World.finish,World.session_reach,if_pos,Session.isSome_context?_iff] at kept ready ⊢
    exact kept ready
  · simp [World.start,World.finish,history,Span.milestones]
  · simpa [World.start,World.finish] using asked

/-- The run that answers what was asked for before it. -/
theorem heed_span {a : World MemoryHost} {before : List Milestone} (idle : (a.session s).inFlight = false)
    (told : Told s a w before) (busy : (w.session s).inFlight = true)
    (ready : (w.session s).context?.isSome) (run : env.runOnce s (w.heed s) = some u) :
    (u.session s).inFlight = true ∧ (u.session s).context?.isSome ∧
    ∃ span : Span, Told s w u span.milestones ∧ (w.session s).config = some span.config ∧
      (∀ m ∈ span.during, m.isRun = false) ∧
      ((u.session s).requested = true ↔ .requested ∈ span.during) ∧
      (u.requests s = w.requests s ↔ .requested ∉ span.during) := by
  have heeded : Told s w (w.heed s) [] := told_modify fun _ => rfl
  obtain ⟨flying,able,span,history,adopted,quiet,asked⟩ :=
    runOnce_span issues (w := w.heed s) (by simpa [World.heed])
      (by simpa [World.heed,Session.isSome_context?_iff] using ready) run
  obtain ⟨all,whole⟩ := (history_tells (Command.Spares s) s).runOnce (issues (history_tells _ s)) idle
    ⟨_,told.trans heeded⟩ run
  have since := told.since whole history
  refine ⟨flying,able,span,since,by simpa [World.heed] using adopted,quiet,by simpa [World.heed] using asked,?_⟩
  rw [World.requests,since.history,List.count_append,Span.milestones]
  simp [World.requests,List.count_append,List.count_eq_zero]

/-- Draining the requests takes just the runs up to the first during which there is none. -/
theorem drain_settles {a : World MemoryHost} {before : List Milestone} (idle : (a.session s).inFlight = false)
    (told : Told s a w before) (busy : (w.session s).inFlight = true) (ready : (w.session s).context?.isSome)
    (requested : (w.session s).requested = true) (settles : Settles env s i w v) :
    env.drain s w = some v ∧ (v.session s).requested = false ∧
    ∃ spans : List Span, spans.length = i ∧ Row s w v spans := by
  induction settles generalizing before with
  | @quiet w v run none =>
    obtain ⟨-,-,span,since,adopted,apart,asked,same⟩ := heed_span issues idle told busy ready run
    have unasked := same.mp none
    have settled : (v.session s).requested = false := by simpa [unasked] using asked
    refine ⟨?_,settled,[span],rfl,.cons since adopted apart (by simpa) (.nil s v)⟩
    rw [Environment.drain,if_pos requested,run]
    change env.drain s v = some v
    rw [Environment.drain,settled]
    rfl
  | @again i w u v run more rest ih =>
    obtain ⟨flying,able,span,since,adopted,apart,asked,same⟩ := heed_span issues idle told busy ready run
    have again : .requested ∈ span.during := by
      apply Classical.byContradiction
      intro unasked
      have none := same.mpr unasked
      omega
    obtain ⟨drained,settled,spans,length,row⟩ := ih (told.trans since) flying able (asked.mpr again)
    have nonempty : spans ≠ [] := by
      rintro rfl
      cases rest <;> simp at length
    refine ⟨?_,settled,span :: spans,by simp [length],.cons since adopted apart (by simp [again,nonempty]) row⟩
    rw [Environment.drain,if_pos requested,run]
    exact drained

end Runs

/-- After the last run there is no request left without a run that starts later. -/
theorem Row.answered {s : Nat} {w v : World MemoryHost} {spans : List Span} (row : Row s w v spans)
    (some : spans ≠ []) {before after : List Milestone}
    (split : spans.flatMap Span.milestones = before ++ .requested :: after) :
    ∃ config, .started config ∈ after := by
  obtain ⟨earlier,last,rfl⟩ := List.eq_nil_or_concat spans |>.resolve_left some
  have quiet : .requested ∉ last.during := by
    simpa using row.followed earlier last [] (by simp)
  have unasked : .requested ∉ last.milestones := by simpa [Span.milestones]
  rw [List.concat_eq_append,List.flatMap_append,List.flatMap_singleton] at split
  rcases List.append_eq_append_iff.mp split with ⟨_,-,tail⟩ | ⟨between,-,tail⟩
  · exact (unasked (by simp [tail])).elim
  · cases between with
    | nil =>
      rw [List.nil_append] at tail
      exact (unasked (by simp [← tail])).elim
    | cons first between =>
      obtain ⟨-,rfl⟩ := List.cons.inj tail
      exact ⟨last.config,by simp [Span.milestones]⟩

/-- Whatever the collaborators request during the runs, a regeneration comes back after the first run
without a request. By then every request has been followed by a run, none ran inside another, and
nothing is left to be run later. -/
theorem regenerate_coalesces {tools : Toolchain} {behaviour : Behaviour} {depth s i : Nat}
    {w v : World MemoryHost} (issues : ∀ entry w, (behaviour entry w).Issues (Command.Spares s))
    (ready : (w.session s).context?.isSome) (idle : (w.session s).inFlight = false)
    (settles : Settles (.scripted tools behaviour depth) s i ((w.request s).lock s) v) :
    (Environment.scripted tools behaviour depth).regenerate s w = some (v.unlock s) ∧
    ((v.unlock s).session s).requested = false ∧ ((v.unlock s).session s).inFlight = false ∧
    ∃ spans : List Span, spans.length = i ∧ Row s (w.request s) (v.unlock s) spans ∧
      ∀ before after, (v.unlock s).history s = w.history s ++ before ++ .requested :: after →
        ∃ config, .started config ∈ after := by
  have told : Told s w ((w.request s).lock s) [.requested] :=
    ⟨by simp [World.request,World.lock],by simp [World.request,World.lock,Session.outline,Outline.redraw]⟩
  obtain ⟨drained,settled,spans,length,row⟩ :=
    drain_settles (Environment.scripted_issues issues tools depth) idle told
      (by simp [World.lock]) (by simpa [World.lock,World.request,Session.isSome_context?_iff] using ready)
      (by simp [World.lock,World.request]) settles
  have unlocked : Row s (w.request s) (v.unlock s) spans :=
    row.between (told_modify fun _ => rfl) (told_modify fun _ => rfl)
  have nonempty : spans ≠ [] := by
    rintro rfl
    cases settles <;> cases length
  refine ⟨?_,by simpa [World.unlock],by simp [World.unlock],spans,length,unlocked,?_⟩
  · rw [Environment.regenerate,Environment.attempt,if_neg (by simp [World.request,idle]),drained]
    simp [World.unlock,settled]
  · intro before after split
    rw [unlocked.history,World.request,World.history_reach,if_pos rfl,List.append_assoc,
      List.append_assoc,List.append_cancel_left_eq] at split
    cases before with
    | nil =>
      obtain ⟨-,rfl⟩ := List.cons.inj split
      obtain ⟨first,rest,rfl⟩ := List.exists_cons_of_ne_nil nonempty
      exact ⟨first.config,by simp [Span.milestones]⟩
    | cons first before => exact unlocked.answered nonempty (List.cons.inj split).2

/-- A session that has options, but no locales directory on its host. -/
def World.stray : World MemoryHost :=
  {sessions := ⟨[{host := some 0,sink := some 0,config := some default}]⟩}

/-- Asks for two regenerations when the first run has failed. -/
def Behaviour.eager : Behaviour := fun entry w =>
  match entry with
  | .emitted _ _ => if (w.session 0).runs = 1 then .ofList [.regenerate 0,.regenerate 0] else .done
  | _ => .done

theorem eager_issues (entry : Entry) (w : World MemoryHost) :
    (Behaviour.eager entry w).Issues (Command.Spares 0) := by
  unfold Behaviour.eager
  split
  · split
    · exact ⟨trivial,fun _ => ⟨trivial,fun _ => trivial⟩⟩
    · trivial
  · trivial

def strayFault : RunFault := .listing (.listing default "no such directory")

/-- All there is to hear of a run is that it fails. -/
theorem stray_runOnce {env : Environment MemoryHost} {w : World MemoryHost}
    (context : (w.session 0).context? = some ⟨0,none,default⟩) (bare : w.host 0 = default)
    (sink : (w.session 0).sink = some 0) : env.runOnce 0 w =
      (env.announce (.emitted 0 (.regenerationFailed strayFault.message)) (w.start 0 default)).map
        (·.finish 0 (.failed strayFault.message)) := by
  have missing : env.toolchain.load default ((w.start 0 default).host 0) = .error strayFault := by
    rw [show (w.start 0 default).host 0 = default from bare]
    rfl
  have heard : ((w.start 0 default).session 0).sink = some 0 := by simpa [World.start]
  have rendered : env.render (some 0) 0 default .types (w.start 0 default) =
      some (.error strayFault,w.start 0 default) := by
    rw [Environment.render,show (default : Config).localesDirectory = default from rfl,missing]
  have produced : env.produce (some 0) 0 none default (w.start 0 default) =
      some (.error strayFault,w.start 0 default) := by
    simp [Environment.produce,Environment.log,rendered,Environment.save]
  simp only [Environment.runOnce,context,produced,Environment.emit,Option.bind_eq_bind,Option.bind_some,heard,
    Option.map_eq_bind]
  rfl

theorem eager_twice {tools : Toolchain} {w : World MemoryHost} {event : Event}
    (busy : (w.session 0).inFlight = true) (held : (w.session 0).dropped = false)
    (first : (w.session 0).runs = 1) : (Environment.scripted tools .eager 1).announce (.emitted 0 event) w =
      some (((((w.record (.emitted 0 event)).request 0).record (.nested .done)).request 0).record
        (.nested .done)) := by
  have asks {w : World MemoryHost} (busy : (w.session 0).inFlight = true) (held : (w.session 0).dropped = false) :
      (Environment.scripted tools .eager 0).perform (.regenerate 0) w = some (.done,w.request 0) := by
    simp [Environment.perform,Environment.onSession,held,Environment.regenerate_of_inFlight _ busy]
  rw [Environment.announce,Environment.scripted]
  simp [Behaviour.eager,Environment.follow,asks,first,busy,held,Script.ofList,World.request]

/-- Nothing else is heard of. -/
theorem eager_once {tools : Toolchain} {w : World MemoryHost} {entry : Entry} (later : (w.session 0).runs ≠ 1) :
    (Environment.scripted tools .eager 1).announce entry w = some (w.record entry) := by
  rw [Environment.announce,Environment.scripted]
  cases entry <;> simp [Behaviour.eager,Environment.follow,later]

/-- Two requests during the first run are answered by one more. -/
theorem stray_settles (tools : Toolchain) :
    ∃ v, Settles (.scripted tools .eager 1) 0 2 ((World.stray.request 0).lock 0) v := by
  refine ⟨?v,.again (u := ?u) ?first ?more (.quiet ?last ?none)⟩
  case first => rw [stray_runOnce rfl rfl rfl,eager_twice rfl rfl rfl,Option.map_some]
  case last => rw [stray_runOnce rfl rfl rfl,eager_once (by decide),Option.map_some]
  case more => decide
  case none => decide

theorem stray_regenerates_twice : ∃ v spans,
    (Environment.scripted ⟨fun _ => .error "",fun _ _ _ => .error ""⟩ .eager 1).regenerate 0 .stray = some v ∧
    spans.length = 2 ∧ Row 0 (World.stray.request 0) v spans := by
  obtain ⟨v,settles⟩ := stray_settles ⟨fun _ => .error "",fun _ _ _ => .error ""⟩
  obtain ⟨back,-,-,spans,length,row,-⟩ := regenerate_coalesces eager_issues rfl rfl settles
  exact ⟨v.unlock 0,spans,back,length,row⟩

end Phrasebook
