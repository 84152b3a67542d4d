import Phrasebook.Session.Command
import Phrasebook.Slots

/-! Sessions, the hosts and resolver hooks they share, and the trace of what happened. -/
namespace Phrasebook

inductive Phase where
  /-- no options adopted yet -/
  | uninitialized
  /-- options adopted, resolution not intercepted -/
  | validated
  /-- options adopted and resolution intercepted -/
  | active
  | disposed
deriving DecidableEq, Inhabited, Repr

/-- How the last regeneration ended. -/
inductive Status where
  | written (report : Report)
  | failed (message : String)
deriving DecidableEq, Repr

/-- An open watch and the host that holds it. -/
structure Handle where
  host : Nat
  watch : WatchId
  path : Path
deriving DecidableEq, Repr

structure Session where
  phase : Phase := .uninitialized
  host : Option Nat := none
  logger : Option Nat := none
  hook : Option Nat := none
  sink : Option Nat := none
  config : Option Config := none
  watches : List Handle := []
  /-- laying a layer over a resolver was tried, which happens once -/
  installed : Bool := false
  /-- a regeneration is wanted that has not started yet -/
  requested : Bool := false
  inFlight : Bool := false
  runs : Nat := 0
  last : Option Status := none
  /-- how often the generator was called -/
  generations : Nat := 0
  dropped : Bool := false
deriving Inhabited, Repr

/-- What happens to a session, whether or not anybody hears of it. -/
inductive Milestone where
  | adopted (config : Config)
  /-- resolution is intercepted from here on -/
  | hooked
  | requested
  /-- a regeneration starts, with these options -/
  | started (config : Config)
  | ended (status : Status)
  /-- these files are watched from here on, and no others -/
  | watching (files : List Path)
  | disposed
deriving DecidableEq, Repr

/-- Remarks that only a detailed log shows. -/
inductive Note where
  | regenerated (report : Report)
  | fileChanged (path : Path)
  | directoryMissing (moduleName : String) (directory : Path)
deriving DecidableEq, Repr

inductive Entry where
  | logged (logger : Nat) (line : String)
  | emitted (sink : Nat) (event : Event)
  /-- a generator is called, for the n-th time in its session -/
  | generating (session call : Nat)
  | asked (query : Query)
  | changed (recorder : Nat) (path : Path)
  | opened (path : Path)
  | closed (path : Path)
  | noted (note : Note)
  | reached (session : Nat) (milestone : Milestone)
  /-- a command that a collaborator issued has been carried out -/
  | nested (reply : Reply)
deriving DecidableEq, Repr

structure World (σ : Type) where
  hosts : Slots σ := {}
  hooks : Slots Hook := {}
  sessions : Slots Session := {}
  /-- watch sets that belong to no session -/
  recorders : Slots (List Handle) := {}
  /-- the session of each layer or watch that is at work, which holds it until it is done -/
  holds : List Nat := []
  /-- how many event sinks there are -/
  sinks : Nat := 0
  trace : List Entry := []

/-- Parsers and generators; both depend on nothing but their input. -/
structure Toolchain where
  parse : String → Except String Locale.Tree
  generate : List Locale.Entry → Target → Mode → Except String Artifact

/-- What sessions rely on: a toolchain, and collaborators that hear of log lines, events and
generator calls and may do something about them, unless they never come back. -/
structure Environment (σ : Type) where
  toolchain : Toolchain
  respond : Entry → World σ → Option (World σ)

/-- What an entry says of one session. -/
def Entry.milestone? (s : Nat) : Entry → Option Milestone
  | .reached t milestone => if t = s then some milestone else none
  | _ => none

namespace World

variable {σ : Type}

def record (entry : Entry) (w : World σ) : World σ := {w with trace := w.trace ++ [entry]}

def session (w : World σ) (s : Nat) : Session := w.sessions.get s

def modify (s : Nat) (f : Session → Session) (w : World σ) : World σ :=
  {w with sessions := w.sessions.modify s f}

/-- Changes a session and notes what that means for it. -/
def reach (s : Nat) (milestone : Milestone) (f : Session → Session) (w : World σ) : World σ :=
  (w.modify s f).record (.reached s milestone)

/-- The milestones of a session so far. -/
def history (w : World σ) (s : Nat) : List Milestone := w.trace.filterMap (Entry.milestone? s)

def request (s : Nat) (w : World σ) : World σ :=
  w.reach s .requested fun session => {session with requested := true}

/-- The run that starts next answers every request made so far. -/
def heed (s : Nat) (w : World σ) : World σ :=
  w.modify s fun session => {session with requested := false}

def lock (s : Nat) (w : World σ) : World σ := w.modify s fun session => {session with inFlight := true}

def unlock (s : Nat) (w : World σ) : World σ := w.modify s fun session => {session with inFlight := false}

def start (s : Nat) (config : Config) (w : World σ) : World σ :=
  w.reach s (.started config) fun session => {session with runs := session.runs + 1}

def finish (s : Nat) (status : Status) (w : World σ) : World σ :=
  w.reach s (.ended status) fun session => {session with last := some status}

def adopt (s : Nat) (config : Config) (phase : Phase) (w : World σ) : World σ :=
  w.reach s (.adopted config) fun session => {session with config := some config,phase := phase}

def activate (s : Nat) (w : World σ) : World σ :=
  w.reach s .hooked fun session => {session with phase := .active}

def retire (s : Nat) (w : World σ) : World σ :=
  w.reach s .disposed fun session => {session with phase := .disposed,config := none}

/-- The open watches of a subscriber, in opening order. -/
def watches (w : World σ) : Subscriber → List Handle
  | .session s => (w.session s).watches
  | .recorder r => w.recorders.get r

def setWatches (owner : Subscriber) (handles : List Handle) (w : World σ) : World σ :=
  match owner with
  | .session s =>
    w.reach s (.watching (handles.map (·.path))) fun session => {session with watches := handles}
  | .recorder r => {w with recorders := w.recorders.put r handles}

/-- A layer or a watch of the session sets to work. -/
def hold (s : Nat) (w : World σ) : World σ := {w with holds := s :: w.holds}

def leave (s : Nat) (w : World σ) : World σ := {w with holds := w.holds.erase s}

/-- Nobody holds the session any more, nor is anything of it at work. -/
def gone (w : World σ) (s : Nat) : Bool := (w.session s).dropped && !w.holds.contains s

def setHook (i : Nat) (hook : Hook) (w : World σ) : World σ := {w with hooks := w.hooks.put i hook}

/-- Gives a session an event sink of its own. -/
def renewSink (s : Nat) (w : World σ) : World σ :=
  {w with sinks := w.sinks + 1}.modify s fun session => {session with sink := some w.sinks}

section Sessions

variable (w : World σ) (s t : Nat)

@[simp] theorem session_record (entry : Entry) : (w.record entry).session s = w.session s := rfl
@[simp] theorem session_setHook (i : Nat) (hook : Hook) : (w.setHook i hook).session s = w.session s := rfl

@[simp] theorem session_hold : (w.hold t).session s = w.session s := rfl
@[simp] theorem session_leave : (w.leave t).session s = w.session s := rfl

@[simp] theorem session_modify (f : Session → Session) :
    (w.modify t f).session s = if t = s then f (w.session s) else w.session s :=
  Slots.get_modify w.sessions t s f

@[simp] theorem session_reach (milestone : Milestone) (f : Session → Session) :
    (w.reach t milestone f).session s = if t = s then f (w.session s) else w.session s :=
  session_modify w s t f

@[simp] theorem session_renewSink : (w.renewSink t).session s =
    if t = s then {w.session s with sink := some w.sinks} else w.session s :=
  session_modify {w with sinks := w.sinks + 1} s t _

@[simp] theorem history_record (entry : Entry) :
    (w.record entry).history s = w.history s ++ (entry.milestone? s).toList := by
  cases h : entry.milestone? s <;> simp [history,record,h]

@[simp] theorem history_hold : (w.hold t).history s = w.history s := rfl
@[simp] theorem history_leave : (w.leave t).history s = w.history s := rfl
@[simp] theorem history_modify (f : Session → Session) : (w.modify t f).history s = w.history s := rfl
@[simp] theorem history_setHook (i : Nat) (hook : Hook) : (w.setHook i hook).history s = w.history s := rfl
@[simp] theorem history_renewSink : (w.renewSink t).history s = w.history s := rfl

@[simp] theorem history_reach (milestone : Milestone) (f : Session → Session) :
    (w.reach t milestone f).history s = w.history s ++ if t = s then [milestone] else [] := by
  simp only [reach,history_record,history_modify,Entry.milestone?]
  split <;> rfl

@[simp] theorem watches_hold (owner : Subscriber) : (w.hold t).watches owner = w.watches owner := by
  cases owner <;> rfl

@[simp] theorem watches_leave (owner : Subscriber) : (w.leave t).watches owner = w.watches owner := by
  cases owner <;> rfl

/-- Who sets to work and is done leaves everything as it was. -/
@[simp] theorem leave_hold : (w.hold s).leave s = w := by simp [hold,leave]

/-- Unless it is dropped, a session is there. -/
theorem gone_of_held {w : World σ} {s : Nat} (held : (w.session s).dropped = false) : w.gone s = false := by
  simp [gone,held]

theorem dropped_of_gone {w : World σ} {s : Nat} (gone : w.gone s = true) : (w.session s).dropped = true :=
  (Bool.and_eq_true_iff.mp gone).1

/-- What is at work keeps its session there. -/
@[simp] theorem gone_hold : (w.hold s).gone s = false := by simp [gone,hold]

@[simp] theorem session_setWatches (owner : Subscriber) (handles : List Handle) :
    (w.setWatches owner handles).session s =
      if owner = .session s then {w.session s with watches := handles} else w.session s := by
  cases owner with
  | session t => simp [setWatches]
  | recorder r => rfl

@[simp] theorem history_setWatches (owner : Subscriber) (handles : List Handle) :
    (w.setWatches owner handles).history s = w.history s ++
       if owner = .session s then [.watching (handles.map (·.path))] else [] := by
  cases owner with
  | session t => simp [setWatches]
  | recorder r => simp [setWatches,history]

@[simp] theorem watches_setWatches (owner other : Subscriber) (handles : List Handle) :
    (w.setWatches owner handles).watches other = if owner = other then handles else w.watches other := by
  cases owner with
  | session t =>
    cases other with
    | session s => simp only [watches,session_setWatches]; split <;> rfl
    | recorder r => rfl
  | recorder q =>
    cases other with
    | session s => rfl
    | recorder r => simp [setWatches,watches,Slots.get_put]

end Sessions

variable [Inhabited σ]

def host (w : World σ) (h : Nat) : σ := w.hosts.get h

def setHost (h : Nat) (state : σ) (w : World σ) : World σ := {w with hosts := w.hosts.put h state}

section Hosts

variable (w : World σ) (s h : Nat)

@[simp] theorem host_record (entry : Entry) : (w.record entry).host h = w.host h := rfl
@[simp] theorem host_hold : (w.hold s).host h = w.host h := rfl
@[simp] theorem host_leave : (w.leave s).host h = w.host h := rfl
@[simp] theorem host_modify (f : Session → Session) : (w.modify s f).host h = w.host h := rfl
@[simp] theorem host_setHook (i : Nat) (hook : Hook) : (w.setHook i hook).host h = w.host h := rfl
@[simp] theorem host_renewSink : (w.renewSink s).host h = w.host h := rfl

@[simp] theorem host_reach (milestone : Milestone) (f : Session → Session) :
    (w.reach s milestone f).host h = w.host h := rfl

@[simp] theorem host_setWatches (owner : Subscriber) (handles : List Handle) :
    (w.setWatches owner handles).host h = w.host h := by
  cases owner <;> rfl

@[simp] theorem host_setHost (g : Nat) (state : σ) :
    (w.setHost g state).host h = if g = h then state else w.host h := Slots.get_put w.hosts g h state

@[simp] theorem session_setHost (state : σ) : (w.setHost h state).session s = w.session s := rfl
@[simp] theorem history_setHost (state : σ) : (w.setHost h state).history s = w.history s := rfl

end Hosts
end World

/-- What a session works with once it has adopted options. -/
structure Context where
  host : Nat
  logger : Option Nat
  config : Config
deriving Repr

def Session.context? (session : Session) : Option Context := do
  some ⟨← session.host,session.logger,← session.config⟩

theorem Session.isSome_context?_iff {session : Session} :
    session.context?.isSome ↔ session.host.isSome ∧ session.config.isSome := by
  cases host : session.host <;> cases config : session.config <;>
    simp [context?,host,config]

theorem Session.host_of_context? {session : Session} {context : Context} (found : session.context? = some context) :
    session.host = some context.host := by
  simp only [context?,Option.bind_eq_bind,Option.bind_eq_some_iff] at found
  obtain ⟨h,host,_,_,same⟩ := found
  cases same
  exact host

theorem Session.config_of_context? {session : Session} {context : Context}
    (found : session.context? = some context) : session.config = some context.config := by
  simp only [context?,Option.bind_eq_bind,Option.bind_eq_some_iff] at found
  obtain ⟨_,_,config,adopted,same⟩ := found
  cases same
  exact adopted

namespace Environment

variable {σ : Type} (env : Environment σ)

/-- Records an entry and lets its addressee respond. -/
def announce (entry : Entry) (w : World σ) : Option (World σ) := env.respond entry (w.record entry)

/-- Without a logger nothing is said. -/
def log (logger : Option Nat) (line : String) (w : World σ) : Option (World σ) :=
  match logger with
  | some logger => env.announce (.logged logger line) w
  | none => some w

def emit (s : Nat) (event : Event) (w : World σ) : Option (World σ) :=
  match (w.session s).sink with
  | some sink => env.announce (.emitted sink event) w
  | none => some w

end Environment
end Phrasebook
