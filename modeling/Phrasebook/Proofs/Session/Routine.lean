import Phrasebook.Proofs.Session.Answering
import Phrasebook.Proofs.Session.Phases

/-! What operations do while collaborators only listen. A session at work changes no more of itself than its
runs and its watches, and leaves the other sessions alone: `World.Works`. -/
namespace Phrasebook

/-- Nobody does anything about what he hears. -/
def Environment.silent (tools : Toolchain) : Environment MemoryHost := .scripted tools (fun _ _ => .done) 0

theorem Environment.silent_quiet (tools : Toolchain) : (Environment.silent tools).Quiet := scripted_quiet tools 0

/-- Permitted commands lead from one world to another, each carried out before the next is issued. -/
inductive Passes (permitted : Command → Prop) : World MemoryHost → World MemoryHost → Prop where
  | refl (w : World MemoryHost) : Passes permitted w w
  | perform {a b c : World MemoryHost} {tools : Toolchain} {command : Command} {reply : Reply}
      (before : Passes permitted a b) (allowed : permitted command)
      (run : (Environment.silent tools).perform command b = some (reply,c)) : Passes permitted a c

/-- A world in which nothing has happened yet. -/
structure World.Blank (w : World MemoryHost) : Prop extends w.Fresh where
  layers : ∀ h, (w.hooks.get h).layers = []
  trace : w.trace = []

section Courses

variable {permitted : Command → Prop} {start w : World MemoryHost}

theorem Passes.leads (passes : Passes permitted start w) : Leads start w := by
  induction passes with
  | refl => exact .refl _
  | perform before allowed run ih => exact .perform ih run

theorem World.Blank.bare (blank : start.Blank) (s : Nat) : ¬start.Intercepts s := by
  rintro ⟨hook,laid⟩
  rw [blank.layers] at laid
  cases laid

theorem Passes.course (passes : Passes permitted start w) (blank : start.Blank) (s : Nat) : Course s w := by
  induction passes with
  | refl => exact .start blank.toFresh (blank.bare s)
  | perform before allowed run ih => exact .turn ih ⟨_,fun _ _ => .done,0,_,fun _ _ => trivial,run⟩

end Courses

/-- What a session has its event sink know. -/
def Entry.emission? : Entry → Option (Nat × Event)
  | .emitted sink event => some (sink,event)
  | _ => none

/-- A session but for what its runs and its watches change. -/
def Session.bearing (session : Session) : Session :=
  {session with watches := [],requested := false,runs := 0,last := none,generations := 0}

namespace World

/-- What event sinks have heard so far. -/
def emissions (w : World MemoryHost) : List (Nat × Event) := w.trace.filterMap Entry.emission?

/-- How many times they have heard that resolution is intercepted. -/
def hookings (w : World MemoryHost) : Nat := w.emissions.countP (·.2 = .resolverHooked)

theorem emissions_record (entry : Entry) (w : World MemoryHost) :
    (w.record entry).emissions = w.emissions ++ entry.emission?.toList := by
  cases h : entry.emission? <;> simp [emissions,record,h]

theorem emissions_reach (s : Nat) (milestone : Milestone) (f : Session → Session) (w : World MemoryHost) :
    (w.reach s milestone f).emissions = w.emissions := (emissions_record _ _).trans (List.append_nil _)

/-- Sessions that work are among these, and keep all but their runs and their watches. In the end the same are at
work as before. -/
structure Works (p : Nat → Prop) (a b : World MemoryHost) : Prop where
  spared : ∀ t, ¬p t → b.session t = a.session t
  bearing : ∀ t, (b.session t).bearing = (a.session t).bearing
  hooks : b.hooks = a.hooks
  recorders : b.recorders = a.recorders
  holds : b.holds = a.holds
  hookings : b.hookings = a.hookings

namespace Works

variable {p q : Nat → Prop} {s : Nat} {a b c u w : World MemoryHost}

theorem refl (w : World MemoryHost) : Works p w w := ⟨fun _ _ => rfl,fun _ => rfl,rfl,rfl,rfl,rfl⟩

theorem trans (first : Works p a b) (next : Works p b c) : Works p a c where
  spared t idle := (next.spared t idle).trans (first.spared t idle)
  bearing t := (next.bearing t).trans (first.bearing t)
  hooks := next.hooks.trans first.hooks
  recorders := next.recorders.trans first.recorders
  holds := next.holds.trans first.holds
  hookings := next.hookings.trans first.hookings

theorem mono (works : Works p a b) (sub : ∀ t, p t → q t) : Works q a b :=
  {works with spared := fun t idle => works.spared t (idle ∘ sub t)}

/-- Whatever else a session shows is the same. -/
theorem same (works : Works p a b) {α : Type} (shown : Session → α)
    (bearing : ∀ session, shown session.bearing = shown session) (t : Nat) :
    shown (b.session t) = shown (a.session t) := by
  rw [← bearing,works.bearing t,bearing]

theorem context? (works : Works p a b) (t : Nat) : (b.session t).context? = (a.session t).context? :=
  works.same (·.context?) (fun _ => rfl) t

theorem inFlight (works : Works p a b) (t : Nat) : (b.session t).inFlight = (a.session t).inFlight :=
  works.same (·.inFlight) (fun _ => rfl) t

theorem record {entry : Entry} (plain : ∀ sink, entry.emission? ≠ some (sink,.resolverHooked)) :
    Works p w (w.record entry) := by
  refine ⟨fun _ _ => rfl,fun _ => rfl,rfl,rfl,rfl,?_⟩
  rw [World.hookings,emissions_record,List.countP_append]
  cases emitted : entry.emission? with
  | none => rfl
  | some emission =>
    obtain ⟨sink,event⟩ := emission
    have other : event ≠ .resolverHooked := fun same => plain sink (same ▸ emitted)
    simp [World.hookings,other]

theorem remark {entry : Entry} (silent : entry.emission? = none) : Works p w (w.record entry) :=
  record fun sink emitted => by simp [silent] at emitted

theorem modify {f : Session → Session} (own : p s) (keeps : ∀ session, (f session).bearing = session.bearing) :
    Works p w (w.modify s f) := by
  refine ⟨fun t idle => ?_,fun t => ?_,rfl,rfl,rfl,rfl⟩
  · have other : s ≠ t := fun same => idle (same ▸ own)
    rw [session_modify,if_neg other]
  · rw [session_modify]
    split
    · exact keeps _
    · rfl

theorem reach {milestone : Milestone} {f : Session → Session} (own : p s)
    (keeps : ∀ session, (f session).bearing = session.bearing) : Works p w (w.reach s milestone f) :=
  (modify own keeps).trans (remark rfl)

theorem setHost (h : Nat) (state : MemoryHost) : Works p w (w.setHost h state) :=
  ⟨fun _ _ => rfl,fun _ => rfl,rfl,rfl,rfl,rfl⟩

theorem close (handle : Handle) : Works p w (w.close handle) := (setHost _ _).trans (remark rfl)

theorem setWatches (own : p s) (handles : List Handle) : Works p w (w.setWatches (.session s) handles) :=
  reach own fun _ => rfl

theorem unwatch (own : p s) : Works p w (w.unwatch (.session s)) :=
  unwatch_keeps (P := Works p w) (fun handle works => works.trans (close handle))
    (fun handles works => works.trans (setWatches own handles)) (refl w)

theorem rewatch (own : p s) (h : Nat) (files : List Path) : Works p w (w.rewatch (.session s) h files).2 :=
  rewatch_keeps (P := Works p w) (fun handle works => works.trans (close handle))
    (fun handles works => works.trans (setWatches own handles))
    (fun _ works => works.trans ((setHost _ _).trans (remark rfl))) files (refl w)

theorem release (own : p s) : Works p w (w.release s) := by
  unfold World.release
  split
  · exact unwatch own
  · exact refl w

/-- Something of a session is at work, and done in the end. -/
theorem leave (works : Works p (a.hold s) b) : Works p a (b.leave s) :=
  {works with holds := by rw [World.leave,works.holds]; simp [World.hold]}

theorem during (own : p s) (works : Works p (a.hold s) b) : Works p a ((b.leave s).release s) :=
  works.leave.trans (release own)

/-- A session that was there at first is still there in the end. -/
theorem there (works : Works p a b) (there : a.gone s = false) : b.release s = b := by
  refine release_of_there ?_
  rw [World.gone,works.same (·.dropped) (fun _ => rfl) s,works.holds]
  exact there

/-- The lock is taken and given back. -/
theorem unlock (own : p s) (idle : (w.session s).inFlight = false) (works : Works p (w.lock s) u) :
    Works p w (u.unlock s) := by
  refine ⟨fun t other => ?_,fun t => ?_,works.hooks,works.recorders,works.holds,works.hookings⟩
  · have apart : s ≠ t := fun same => other (same ▸ own)
    rw [World.unlock,session_modify,if_neg apart,works.spared t other,World.lock,session_modify,if_neg apart]
  · have before := works.bearing t
    rw [World.lock,session_modify] at before
    rw [World.unlock,session_modify]
    split
    next here =>
      subst here
      rw [if_pos rfl] at before
      have given : ({u.session s with inFlight := false} : Session).bearing =
          {(u.session s).bearing with inFlight := false} := rfl
      have taken : ({({w.session s with inFlight := true} : Session).bearing with inFlight := false} : Session) =
          ({w.session s with inFlight := false} : Session).bearing := rfl
      rw [given,before,taken,← idle]
    next other =>
      rw [before,if_neg other]

end Works
end World

namespace Environment.Quiet

variable {env : Environment MemoryHost} (quiet : env.Quiet) {p : Nat → Prop} {s h : Nat} {u v w : World MemoryHost}

include quiet

theorem works_announce {entry : Entry} (silent : entry.emission? = none) (run : env.announce entry w = some v) :
    World.Works p w v := by
  cases (quiet entry _).symm.trans run
  exact .remark silent

theorem works_log {logger : Option Nat} {line : String} (run : env.log logger line w = some v) :
    World.Works p w v := by
  cases logger with
  | none => cases run; exact .refl _
  | some logger =>
    have told : env.announce (.logged logger line) w = some v := run
    exact quiet.works_announce rfl told

theorem works_emit {event : Event} (unlike : event ≠ .resolverHooked) (run : env.emit s event w = some v) :
    World.Works p w v := by
  rw [Environment.emit] at run
  split at run
  next sink _ =>
    have plain (other : Nat) : (Entry.emitted sink event).emission? ≠ some (other,.resolverHooked) := by
      rintro ⟨⟩
      exact unlike rfl
    cases (quiet (.emitted sink event) _).symm.trans run
    exact .record plain
  · cases run; exact .refl _

theorem works_announceCall {generator : Option Nat} (own : ∀ s, generator = some s → p s)
    (run : env.announceCall generator w = some v) : World.Works p w v := by
  cases generator with
  | none => cases run; exact .refl _
  | some s =>
    have called : World.Works p w
        (w.modify s fun session => {session with generations := session.generations + 1}) :=
      .modify (own s rfl) fun _ => rfl
    exact called.trans (quiet.works_announce rfl run)

theorem works_render {generator : Option Nat} {config : Config} {target : Target} {result}
    (own : ∀ s, generator = some s → p s) (run : env.render generator h config target w = some (result,v)) :
    World.Works p w v := by
  rw [Environment.render] at run
  split at run
  · cases run; exact .refl _
  · simp only [Option.bind_eq_bind,Option.bind_eq_some_iff] at run
    obtain ⟨called,call,run⟩ := run
    have works := quiet.works_announceCall own call
    split at run <;> cases run <;> exact works

omit quiet in
theorem works_save (output : Path) (rendered : Except RunFault (List Locale.Entry × String)) :
    World.Works p w (Environment.save h output rendered w).2 := by
  unfold Environment.save
  split
  · exact .refl _
  · split
    · exact .refl _
    · exact .setHost _ _

theorem works_produce {generator logger : Option Nat} {config : Config} {result}
    (own : ∀ s, generator = some s → p s) (run : env.produce generator h logger config w = some (result,v)) :
    World.Works p w v := by
  simp only [Environment.produce,Option.bind_eq_bind,Option.bind_eq_some_iff] at run
  obtain ⟨logged,log,⟨rendered,called⟩,render,run⟩ := run
  have saved := ((quiet.works_log log).trans (quiet.works_render own render)).trans
    (works_save (h := h) config.outputPath rendered)
  split at run
  all_goals
    next same =>
      rw [same] at saved
      simp only [Option.bind_eq_some_iff] at run
      obtain ⟨told,tell,run⟩ := run
      cases run
      have ended := saved.trans (quiet.works_log tell)
      first
        | exact ended
        | exact ended.trans (.remark rfl)

section Working

variable (own : p s)

include own

theorem works_runOnce (run : env.runOnce s w = some v) : World.Works p w v := by
  rw [Environment.runOnce] at run
  split at run
  · cases run; exact .refl _
  next context _ =>
    simp only [Option.bind_eq_bind,Option.bind_eq_some_iff] at run
    obtain ⟨⟨result,made⟩,produce,run⟩ := run
    have begun : World.Works p w (w.start s context.config) := .reach own fun _ => rfl
    have done := begun.trans (quiet.works_produce (by rintro _ ⟨⟩; exact own) produce)
    split at run
    all_goals
      simp only [Option.bind_eq_some_iff] at run
      obtain ⟨told,emit,run⟩ := run
      cases run
      exact (done.trans (quiet.works_emit (by simp) emit)).trans (.reach own fun _ => rfl)

theorem works_drain (run : env.drain s w = some v) : World.Works p w v := by
  refine Environment.drain.partial_correctness env s (World.Works p) ?_ w v run
  intro drain ih w v run
  split at run
  · simp only [Option.bind_eq_bind,Option.bind_eq_some_iff] at run
    obtain ⟨next,once,run⟩ := run
    have heeded : World.Works p w (w.heed s) := .modify own fun _ => rfl
    exact (heeded.trans (quiet.works_runOnce own once)).trans (ih _ _ run)
  · cases run; exact .refl _

/-- No run is left in flight. -/
theorem works_regenerate (run : env.regenerate s w = some v) : World.Works p w v := by
  have asked : World.Works p w (w.request s) := .reach own fun _ => rfl
  refine asked.trans ?_
  refine Environment.attempt.partial_correctness env s (World.Works p) ?_ _ v run
  intro attempt ih w v run
  split at run
  · cases run; exact .refl _
  next idle =>
    simp only [Option.bind_eq_bind,Option.bind_eq_some_iff] at run
    obtain ⟨drained,drain,run⟩ := run
    have done := World.Works.unlock own (by simpa using idle) (quiet.works_drain own drain)
    split at run
    · exact done.trans (ih _ _ run)
    · cases run; exact done

theorem works_refreshWatches {context : Context} {result}
    (run : env.refreshWatches s context w = some (result,v)) : World.Works p w v := by
  rw [Environment.refreshWatches] at run
  split at run
  · cases run; exact .refl _
  next files _ =>
    simp only [Option.bind_eq_bind,Option.bind_eq_some_iff] at run
    obtain ⟨closing,close,opening,log,run⟩ := run
    have opened : World.Works p w (opening.rewatch (.session s) context.host files).2 :=
      ((quiet.works_log close).trans (quiet.works_log log)).trans (.rewatch own _ _)
    split at run
    next fault after rewatch =>
      rw [rewatch] at opened
      cases run
      exact opened
    next refreshed after rewatch =>
      rw [rewatch] at opened
      simp only [Option.bind_eq_some_iff] at run
      obtain ⟨told,log,last,emit,run⟩ := run
      cases run
      exact opened.trans ((quiet.works_log log).trans (quiet.works_emit (by simp) emit))

theorem works_refresh {result} (run : env.refresh s w = some (result,v)) : World.Works p w v := by
  simp only [Environment.refresh] at run
  split at run
  · cases run; exact .refl _
  · split at run
    · cases run; exact .refl _
    · split at run
      · cases run; exact .refl _
      · split at run
        · cases run; exact .refl _
        · split at run
          · cases run; exact .refl _
          · simp only [Option.bind_eq_bind,Option.bind_eq_some_iff] at run
            obtain ⟨told,log,made,regenerate,⟨outcome,last⟩,refresh,run⟩ := run
            have works := ((quiet.works_log log).trans (quiet.works_regenerate own regenerate)).trans
              (quiet.works_refreshWatches own refresh)
            split at run <;> simp_all

theorem works_fileChanged {path : Path} (run : env.fileChanged s path w = some v) : World.Works p w v := by
  cases gone : w.gone s with
  | true =>
    rw [env.fileChanged_of_gone gone] at run
    cases run
    exact .refl _
  | false =>
    obtain ⟨told,made,emit,regenerate,rfl⟩ := (env.fileChanged_of_there gone).mp run
    have noted : World.Works p (w.hold s) ((w.hold s).record (.noted (.fileChanged path))) := .remark rfl
    exact .during own (noted.trans ((quiet.works_emit (by simp) emit).trans (quiet.works_regenerate own regenerate)))

theorem works_intercept {file : Path} {found result} (run : env.intercept s file found w = some (result,v)) :
    World.Works p w v := by
  induction found generalizing w result with
  | nil => cases run; exact .refl _
  | cons first rest ih =>
    obtain ⟨name,resolution⟩ := first
    rw [Environment.intercept] at run
    split at run
    · cases run; exact .refl _
    next context _ =>
      split at run
      · obtain ⟨later,found,-⟩ := Environment.answer_eq_some.mp run
        exact ih found
      · simp only [Option.bind_eq_bind,Option.bind_eq_some_iff] at run
        obtain ⟨told,log,run⟩ := run
        have first := quiet.works_log (p := p) log
        split at run
        · obtain ⟨later,found,-⟩ := Environment.answer_eq_some.mp run
          exact (first.trans (.remark rfl)).trans (ih found)
        · simp only [Option.bind_eq_some_iff] at run
          obtain ⟨made,regenerate,⟨outcome,watched⟩,refresh,run⟩ := run
          have renewed := (first.trans (quiet.works_regenerate own regenerate)).trans
            (quiet.works_refreshWatches own refresh)
          cases outcome with
          | error fault => cases run; exact renewed
          | ok =>
            simp only [Option.bind_eq_some_iff] at run
            obtain ⟨emitted,emit,run⟩ := run
            obtain ⟨later,found,-⟩ := Environment.answer_eq_some.mp run
            exact (renewed.trans (quiet.works_emit (by simp) emit)).trans (ih found)

end Working

/-- The sessions that hear of a change are at work. -/
theorem works_fireAll {watches : List Watch}
    (own : ∀ watch ∈ watches, ∀ s, watch.subscriber = .session s → p s) (run : env.fireAll watches w = some v) :
    World.Works p w v := by
  induction watches generalizing w with
  | nil => cases run; exact .refl _
  | cons watch rest ih =>
    simp only [Environment.fireAll,Option.bind_eq_bind,Option.bind_eq_some_iff] at run
    obtain ⟨fired,fire,run⟩ := run
    refine World.Works.trans ?_ (ih (fun watch member => own watch (List.mem_cons_of_mem _ member)) run)
    rw [Environment.fire] at fire
    split at fire
    next s subscribed => exact quiet.works_fileChanged (own watch List.mem_cons_self s subscribed) fire
    · cases fire; exact .remark rfl

theorem works_notify {path : Path} {count : Nat}
    (own : ∀ watch ∈ (w.host h).watches, ∀ s, watch.subscriber = .session s → p s)
    (run : env.notify h path w = some (count,v)) : World.Works p w v := by
  simp only [Environment.notify,Option.bind_eq_bind,Option.bind_eq_some_iff] at run
  obtain ⟨fired,fire,run⟩ := run
  cases run
  refine (World.Works.setHost h _).trans (quiet.works_fireAll (fun watch member => ?_) fire)
  rw [MemoryHost.watchesOn,(MemoryHost.prune_sameWatches _).watches] at member
  exact own watch (List.mem_filter.mp member).1

/-- The sessions that lie over a resolver are at work when it is asked. -/
theorem works_ask {baseline : Resolver} {query : Query} {layers : List Layer} {result}
    (own : ∀ s, .session s ∈ layers → p s) (run : env.ask baseline query layers w = some (result,v)) :
    World.Works p w v := by
  induction layers generalizing v result with
  | nil => cases run; exact .remark rfl
  | cons layer inner ih =>
    simp only [Environment.ask,Option.bind_eq_bind,Option.bind_eq_some_iff] at run
    obtain ⟨⟨answers,asked⟩,ask,run⟩ := run
    have before := ih (fun s laid => own s (List.mem_cons_of_mem _ laid)) ask
    cases answers with
    | error fault => cases run; exact before
    | ok found =>
      cases layer with
      | adjust f => cases run; exact before
      | session s =>
        simp only [Option.bind_eq_some_iff] at run
        obtain ⟨⟨final,intercepted⟩,intercept,run⟩ := run
        cases run
        have mine := own s List.mem_cons_self
        exact before.trans (.during mine (quiet.works_intercept mine intercept))

theorem works_resolve {hook : Nat} {query : Query} {result}
    (own : ∀ s, .session s ∈ (w.hooks.get hook).layers → p s)
    (run : env.resolve hook query w = some (result,v)) : World.Works p w v := by
  simp only [Environment.resolve] at run
  split at run
  · cases run; exact .refl _
  · exact quiet.works_ask own run

end Environment.Quiet

/-- Commands on watch sets that belong to no session. -/
def Command.Records : Command → Prop
  | .rewatch _ _ _ | .unwatch _ | .dropRecorder _ => True
  | _ => False

section Kinds

variable {s : Nat} {command : Command}

theorem Command.Adopts.rules (adopts : command.Adopts s) : command.Rules s := by
  cases command <;> first | exact adopts | exact adopts.elim

theorem Command.Ends.rules (ends : command.Ends s) : command.Rules s := by
  cases command <;> first | exact ends | exact ends.elim

theorem Command.Ends.not_adopts (ends : command.Ends s) (t : Nat) : ¬command.Adopts t := by
  cases command <;> first | exact id | exact ends.elim

theorem Command.Records.not_rules (records : command.Records) (t : Nat) : ¬command.Rules t := by
  cases command <;> first | exact id | exact records.elim

end Kinds

/-- Commands that neither rule a session nor renew its sink, and are none on other watch sets. -/
structure Command.Ordinary (command : Command) : Prop where
  unruly : ∀ s, ¬command.Rules s
  sink : ∀ s, command ≠ .renewSink s
  unrecorded : ¬command.Records

/-- Sessions that a command may set to work. -/
def Command.Rouses (w : World MemoryHost) (s : Nat) : Command → Prop
  | .regenerate t | .refresh t => t = s
  | .resolve hook _ => .session s ∈ (w.hooks.get hook).layers
  | .edit h _ _ | .notify h _ => ∃ watch ∈ (w.host h).watches, watch.subscriber = .session s
  | _ => False

/-- None but these work, and nobody is ruled by it. -/
theorem Environment.Quiet.works_perform {env : Environment MemoryHost} (quiet : env.Quiet) {p : Nat → Prop}
    {command : Command} {reply : Reply} {w v : World MemoryHost} (ordinary : command.Ordinary)
    (own : ∀ s, command.Rouses w s → p s) (run : env.perform command w = some (reply,v)) : World.Works p w v := by
  cases command with
  | host h command => cases run; exact .setHost _ _
  | edit h path content =>
    simp only [Environment.perform,Option.bind_eq_bind,Option.bind_eq_some_iff] at run
    obtain ⟨⟨count,notified⟩,notify,run⟩ := run
    cases run
    refine (World.Works.setHost _ _).trans (quiet.works_notify (fun watch member s subscribed => ?_) notify)
    rw [World.host_setHost,if_pos rfl] at member
    exact own s ⟨watch,member,subscribed⟩
  | notify h path =>
    simp only [Environment.perform,Option.bind_eq_bind,Option.bind_eq_some_iff] at run
    obtain ⟨⟨count,notified⟩,notify,run⟩ := run
    cases run
    exact quiet.works_notify (fun watch member s subscribed => own s ⟨watch,member,subscribed⟩) notify
  | load => cases run; exact .refl _
  | watched => cases run; exact .refl _
  | hookState => cases run; exact .refl _
  | render h config target =>
    simp only [Environment.perform,Option.bind_eq_bind,Option.bind_eq_some_iff] at run
    obtain ⟨⟨result,rendered⟩,render,run⟩ := run
    cases run
    exact quiet.works_render (by simp) render
  | generate h logger config =>
    simp only [Environment.perform,Option.bind_eq_bind,Option.bind_eq_some_iff] at run
    obtain ⟨⟨result,produced⟩,produce,run⟩ := run
    cases run
    exact quiet.works_produce (by simp) produce
  | resolve hook query =>
    simp only [Environment.perform,Option.bind_eq_bind,Option.bind_eq_some_iff] at run
    obtain ⟨⟨result,resolved⟩,resolve,run⟩ := run
    cases run
    exact quiet.works_resolve own resolve
  | regenerate s =>
    rw [Environment.perform] at run
    rcases Environment.onSession_eq_some run with rfl | run
    · exact .refl _
    · simp only [Option.bind_eq_bind,Option.bind_eq_some_iff] at run
      obtain ⟨made,regenerate,run⟩ := run
      cases run
      exact quiet.works_regenerate (own s rfl) regenerate
  | refresh s =>
    rw [Environment.perform] at run
    rcases Environment.onSession_eq_some run with rfl | run
    · exact .refl _
    · simp only [Option.bind_eq_bind,Option.bind_eq_some_iff] at run
      obtain ⟨⟨result,refreshed⟩,refresh,run⟩ := run
      cases run
      exact quiet.works_refresh (own s rfl) refresh
  | create s => exact absurd rfl (ordinary.unruly s)
  | configure s => exact absurd rfl (ordinary.unruly s)
  | dispose s => exact absurd rfl (ordinary.unruly s)
  | drop s => exact absurd rfl (ordinary.unruly s)
  | renewSink s => exact absurd rfl (ordinary.sink s)
  | rewatch => exact absurd trivial ordinary.unrecorded
  | unwatch => exact absurd trivial ordinary.unrecorded
  | dropRecorder => exact absurd trivial ordinary.unrecorded

end Phrasebook
