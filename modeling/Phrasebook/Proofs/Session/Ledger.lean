import Phrasebook.Proofs.Host.Files
import Phrasebook.Proofs.Session.Freshness
import Phrasebook.Proofs.Session.Notification

/-! The reports of a session account for all its runs. A run counts, writes, reports and ends at four moments,
between which collaborators may do whatever is permitted; a session that holds its lock starts no other run
meanwhile, so that the four keep step (`Ledger.Keeps`). Between commands they agree: `reports_account`. -/
namespace Phrasebook

/-- The output that an event names, if it tells of one that was written. -/
def Event.output? : Event → Option Path
  | .regenerated output _ _ => some output
  | _ => none

/-- How a run ended: with this text, made from these locales, in this file, or not at all. -/
inductive Outcome where
  | written (output : Path) (entries : List Locale.Entry) (source : String)
  | failed (message : String)
deriving DecidableEq

namespace Outcome

def event : Outcome → Event
  | written output entries source => .regenerated output entries.length (Digest.ofText source).short
  | failed message => .regenerationFailed message

def status : Outcome → Status
  | written output entries source => .written ⟨output,entries.map (·.name),Digest.ofText source⟩
  | failed message => .failed message

end Outcome

/-- How a host came to be what it is: commands that were issued changed it now and then, and runs wrote to it, each
the text that it generated from the locales that it had loaded from there. -/
inductive Chronicle (tools : Toolchain) (issued : Command → Prop) (h : Nat) :
    MemoryHost → List Outcome → MemoryHost → Prop where
  | start (host : MemoryHost) : Chronicle tools issued h host [] host
  | instructed {a b : MemoryHost} {outcomes : List Outcome} (before : Chronicle tools issued h a outcomes b)
      (command : HostCommand) (instructs : issued (.host h command)) :
      Chronicle tools issued h a outcomes (b.perform command).2
  | edited {a b : MemoryHost} {outcomes : List Outcome} (before : Chronicle tools issued h a outcomes b)
      (path : Path) (content : String) (edits : issued (.edit h path content)) :
      Chronicle tools issued h a outcomes (b.insert path content)
  | watched {a b c : MemoryHost} {outcomes : List Outcome} (before : Chronicle tools issued h a outcomes b)
      (same : c.store = b.store) : Chronicle tools issued h a outcomes c
  | failed {a b : MemoryHost} {outcomes : List Outcome} (before : Chronicle tools issued h a outcomes b)
      (message : String) : Chronicle tools issued h a (outcomes ++ [.failed message]) b
  | written {a b c d : MemoryHost} {outcomes : List Outcome} {directory output : Path} {mode : Mode}
      {entries : List Locale.Entry} {artifact : Artifact} (before : Chronicle tools issued h a outcomes b)
      (loaded : tools.load directory b = .ok entries) (during : Chronicle tools issued h b [] c)
      (generated : tools.generate entries .types mode = .ok artifact)
      (saved : c.write output artifact.primary = .ok d) :
      Chronicle tools issued h a (outcomes ++ [.written output entries artifact.primary]) d

namespace Chronicle

variable {tools : Toolchain} {issued : Command → Prop} {h : Nat} {a b c : MemoryHost} {outcomes more : List Outcome}

theorem trans (first : Chronicle tools issued h a outcomes b) (next : Chronicle tools issued h b more c) :
    Chronicle tools issued h a (outcomes ++ more) c := by
  induction next with
  | start => rwa [List.append_nil]
  | instructed before command instructs ih => exact (ih first).instructed command instructs
  | edited before path content edits ih => exact (ih first).edited path content edits
  | watched before same ih => exact (ih first).watched same
  | failed before message ih => exact List.append_assoc .. ▸ (ih first).failed message
  | written before loaded during generated saved ih _ =>
    exact List.append_assoc .. ▸ (ih first).written loaded during generated saved

/-- Nothing but the outputs of runs has been written. -/
theorem writes_eq (runs : ∀ path content, ¬ issued (.host h (.write path content)))
    (chronicle : Chronicle tools issued h a outcomes b) :
    b.writes = a.writes ++ (outcomes.map Outcome.event).filterMap Event.output? := by
  induction chronicle with
  | start => simp
  | @instructed _ b _ before command instructs ih =>
    have same : (b.perform command).2.writes = b.writes := by
      cases command with
      | write path content => exact absurd instructs (runs path content)
      | list path =>
        simp only [MemoryHost.perform]
        split <;> rfl
      | _ => rfl
    rw [same,ih]
  | edited before path content edits ih => exact ih
  | watched before same ih => exact (congrArg MemoryHost.writes same).trans ih
  | failed before message ih =>
    rw [List.map_append,List.filterMap_append]
    exact ih.trans (congrArg _ (List.append_nil _).symm)
  | written before loaded during generated saved ih ihDuring =>
    have appended := congrArg MemoryHost.writes (MemoryHost.write_eq_ok saved)
    simp only [List.map_nil,List.filterMap_nil,List.append_nil] at ihDuring
    rw [appended,ihDuring,ih,List.map_append,List.filterMap_append,List.append_assoc]
    rfl

end Chronicle

/-- What entries tell one event sink about runs. -/
def Entry.reportTo? (sink : Nat) (entry : Entry) : Option Event :=
  (entry.report?.filter (·.1 = sink)).map (·.2)

/-- Commands that bring no other session to the host nor the session to another, leave its event sink, and do not
write to the host themselves. -/
def Command.Respects (session host : Nat) : Command → Prop
  | .create t place _ _ _ =>
    (place = some host → t = session) ∧ (t = session → ∀ h, place = some h → h = host)
  | .generate h _ _ => h ≠ host
  | .host h (.write _ _) => h ≠ host
  | .renewSink t => t ≠ session
  | _ => True

/-- A session, the host and the event sink that are its own, the toolchain by which it runs, and the commands that
are issued. -/
structure Ledger where
  tools : Toolchain
  session : Nat
  host : Nat
  sink : Nat
  issued : Command → Prop
  permitted : ∀ {command}, issued command → command.Respects session host

namespace Ledger

variable (ledger : Ledger)

/-- No other session is on the host or has the event sink. -/
structure Alone (w : World MemoryHost) : Prop where
  sink : (w.session ledger.session).sink = some ledger.sink
  ownSink : ∀ t, (w.session t).sink = some ledger.sink → t = ledger.session
  known : ledger.sink < w.sinks
  ownHost : ∀ t, (w.session t).host = some ledger.host → t = ledger.session
  host : ∀ h, (w.session ledger.session).host = some h → h = ledger.host

/-- What the event sink has heard about runs. -/
def reports (w : World MemoryHost) : List Event := w.trace.filterMap (Entry.reportTo? ledger.sink)

end Ledger

/-- What has been counted, reported, done and noted. -/
structure Tally where
  runs : Nat := 0
  events : List Event := []
  outcomes : List Outcome := []
  last : Option Status := none

namespace Tally

instance : Append Tally :=
  ⟨fun x y => ⟨x.runs + y.runs,x.events ++ y.events,x.outcomes ++ y.outcomes,y.last.or x.last⟩⟩

/-- The four agree. -/
def of (outcomes : List Outcome) : Tally :=
  ⟨outcomes.length,outcomes.map Outcome.event,outcomes,outcomes.getLast?.map Outcome.status⟩

theorem of_append (outcomes more : List Outcome) : of (outcomes ++ more) = of outcomes ++ of more := by
  change Tally.mk _ _ _ _ = Tally.mk _ _ _ _
  rw [List.length_append,List.map_append,List.getLast?_append,Option.map_or]
  rfl

theorem append_empty (x : Tally) : x ++ ({} : Tally) = x := by
  change Tally.mk _ _ _ _ = x
  simp

theorem empty_append (x : Tally) : ({} : Tally) ++ x = x := by
  change Tally.mk _ _ _ _ = x
  simp

end Tally

namespace Ledger

variable (ledger : Ledger)

/-- So much happened from one world to the other. -/
structure Progress (a : World MemoryHost) (tally : Tally) (b : World MemoryHost) : Prop where
  alone : ledger.Alone b
  inFlight : (b.session ledger.session).inFlight = (a.session ledger.session).inFlight
  runs : (b.session ledger.session).runs = (a.session ledger.session).runs + tally.runs
  events : ledger.reports b = ledger.reports a ++ tally.events
  chronicle : Chronicle ledger.tools ledger.issued ledger.host (a.host ledger.host) tally.outcomes (b.host ledger.host)
  last : (b.session ledger.session).last = tally.last.or (a.session ledger.session).last

/-- Whole runs happened from one world to the other, and none if one was in flight before. -/
def Keeps (a b : World MemoryHost) : Prop :=
  ledger.Alone a → ∃ outcomes, ledger.Progress a (.of outcomes) b ∧
    ((a.session ledger.session).inFlight = true → outcomes = [])

variable {ledger} {a b c w v : World MemoryHost} {x y : Tally} {s t h : Nat}

theorem Alone.of_ties (alone : ledger.Alone a)
    (ties : ∀ t, (b.session t).sink = (a.session t).sink ∧ (b.session t).host = (a.session t).host)
    (sinks : b.sinks = a.sinks) : ledger.Alone b where
  sink := (ties _).1.trans alone.sink
  ownSink t mine := alone.ownSink t ((ties t).1 ▸ mine)
  known := sinks ▸ alone.known
  ownHost t mine := alone.ownHost t ((ties t).2 ▸ mine)
  host h mine := alone.host h ((ties _).2 ▸ mine)

/-- The sink of another session is a new one. -/
theorem Alone.renewSink (alone : ledger.Alone w) (other : t ≠ ledger.session) : ledger.Alone (w.renewSink t) := by
  have kept : (w.renewSink t).session ledger.session = w.session ledger.session := by
    rw [World.session_renewSink,if_neg other]
  refine ⟨?_,fun r mine => ?_,Nat.lt_succ_of_lt alone.known,fun r mine => ?_,fun h mine => ?_⟩
  · rw [kept]
    exact alone.sink
  · rw [World.session_renewSink] at mine
    split at mine
    · exact absurd (Option.some.inj mine) (Nat.ne_of_gt alone.known)
    · exact alone.ownSink r mine
  · rw [World.session_renewSink] at mine
    refine alone.ownHost r ?_
    split at mine <;> exact mine
  · rw [kept] at mine
    exact alone.host h mine

/-- A session that keeps its sink may go to a host if that leaves the two to themselves. -/
theorem Alone.modify (alone : ledger.Alone w) {f : Session → Session}
    (sink : (f (w.session t)).sink = (w.session t).sink)
    (others : (f (w.session t)).host = some ledger.host → t = ledger.session)
    (own : t = ledger.session → ∀ h, (f (w.session t)).host = some h → h = ledger.host) :
    ledger.Alone (w.modify t f) := by
  have tied (r : Nat) : ((w.modify t f).session r).sink = (w.session r).sink := by
    rw [World.session_modify]
    split
    next here => exact here ▸ sink
    · rfl
  refine ⟨(tied _).trans alone.sink,fun r mine => alone.ownSink r (tied r ▸ mine),alone.known,fun r mine => ?_,
    fun h mine => ?_⟩
  · rw [World.session_modify] at mine
    split at mine
    next here =>
      subst here
      exact others mine
    · exact alone.ownHost r mine
  · rw [World.session_modify] at mine
    split at mine
    next here =>
      subst here
      exact own rfl h mine
    · exact alone.host h mine

namespace Progress

theorem refl (alone : ledger.Alone w) : ledger.Progress w {} w := by
  refine ⟨alone,rfl,rfl,?_,.start _,rfl⟩
  simp

theorem trans (first : ledger.Progress a x b) (next : ledger.Progress b y c) : ledger.Progress a (x ++ y) c where
  alone := next.alone
  inFlight := next.inFlight.trans first.inFlight
  runs := by rw [next.runs,first.runs,Nat.add_assoc]; rfl
  events := by rw [next.events,first.events,List.append_assoc]; rfl
  chronicle := first.chronicle.trans next.chronicle
  last := by rw [next.last,first.last,← Option.or_assoc]; rfl

theorem next (first : ledger.Progress a x b) (next : ledger.Progress b {} c) : ledger.Progress a x c :=
  Tally.append_empty x ▸ first.trans next

/-- Nothing that counts is different. -/
theorem quiet (alone : ledger.Alone b)
    (own : (b.session ledger.session).inFlight = (a.session ledger.session).inFlight ∧
      (b.session ledger.session).runs = (a.session ledger.session).runs ∧
      (b.session ledger.session).last = (a.session ledger.session).last)
    (reports : ledger.reports b = ledger.reports a)
    (chronicle : Chronicle ledger.tools ledger.issued ledger.host (a.host ledger.host) [] (b.host ledger.host)) :
    ledger.Progress a {} b where
  alone := alone
  inFlight := own.1
  runs := own.2.1
  events := by rw [reports]; exact (List.append_nil _).symm
  chronicle := chronicle
  last := own.2.2

theorem frame (alone : ledger.Alone a)
    (ties : ∀ t, (b.session t).sink = (a.session t).sink ∧ (b.session t).host = (a.session t).host)
    (own : (b.session ledger.session).inFlight = (a.session ledger.session).inFlight ∧
      (b.session ledger.session).runs = (a.session ledger.session).runs ∧
      (b.session ledger.session).last = (a.session ledger.session).last)
    (sinks : b.sinks = a.sinks) (reports : ledger.reports b = ledger.reports a)
    (chronicle : Chronicle ledger.tools ledger.issued ledger.host (a.host ledger.host) [] (b.host ledger.host)) :
    ledger.Progress a {} b :=
  quiet (alone.of_ties ties sinks) own reports chronicle

theorem record (alone : ledger.Alone w) {entry : Entry} (other : entry.reportTo? ledger.sink = none) :
    ledger.Progress w {} (w.record entry) := by
  refine frame alone (fun _ => ⟨rfl,rfl⟩) ⟨rfl,rfl,rfl⟩ rfl ?_ (.start _)
  rw [reports,World.record,List.filterMap_append]
  simp [other,reports]

theorem modify (alone : ledger.Alone w) {f : Session → Session}
    (ties : (f (w.session t)).sink = (w.session t).sink ∧ (f (w.session t)).host = (w.session t).host)
    (own : t = ledger.session → (f (w.session t)).inFlight = (w.session t).inFlight ∧
      (f (w.session t)).runs = (w.session t).runs ∧ (f (w.session t)).last = (w.session t).last) :
    ledger.Progress w {} (w.modify t f) := by
  refine frame alone (fun r => ?_) ?_ rfl rfl (.start _)
  · rw [World.session_modify]
    split
    next here => exact here ▸ ties
    · exact ⟨rfl,rfl⟩
  · rw [World.session_modify]
    split
    next here => subst here; exact own rfl
    · exact ⟨rfl,rfl,rfl⟩

theorem reach (alone : ledger.Alone w) {milestone : Milestone} {f : Session → Session}
    (ties : (f (w.session t)).sink = (w.session t).sink ∧ (f (w.session t)).host = (w.session t).host)
    (own : t = ledger.session → (f (w.session t)).inFlight = (w.session t).inFlight ∧
      (f (w.session t)).runs = (w.session t).runs ∧ (f (w.session t)).last = (w.session t).last) :
    ledger.Progress w {} (w.reach t milestone f) :=
  have changed := modify alone ties own
  changed.next (.record changed.alone rfl)

theorem setHost (alone : ledger.Alone w) {state : MemoryHost}
    (own : h = ledger.host → Chronicle ledger.tools ledger.issued ledger.host (w.host h) [] state) :
    ledger.Progress w {} (w.setHost h state) := by
  refine frame alone (fun _ => ⟨rfl,rfl⟩) ⟨rfl,rfl,rfl⟩ rfl rfl ?_
  rw [World.host_setHost]
  split
  next here => subst here; exact own rfl
  · exact .start _

/-- Watches come and go. -/
theorem setHost_of_store (alone : ledger.Alone w) {h : Nat} {state : MemoryHost}
    (same : state.store = (w.host h).store) :
    ledger.Progress w {} (w.setHost h state) := setHost alone fun _ => (Chronicle.start _).watched same

theorem close (first : ledger.Progress a x b) (handle : Handle) : ledger.Progress a x (b.close handle) := by
  have closed : ledger.Progress b {} (b.setHost handle.host ((b.host handle.host).close handle.watch)) :=
    setHost_of_store first.alone (MemoryHost.store_close _ handle.watch)
  exact first.next (closed.next (.record closed.alone rfl))

theorem setWatches (first : ledger.Progress a x b) (owner : Subscriber) (handles : List Handle) :
    ledger.Progress a x (b.setWatches owner handles) := by
  cases owner with
  | session t => exact first.next (reach first.alone ⟨rfl,rfl⟩ fun _ => ⟨rfl,rfl,rfl⟩)
  | recorder r => exact first.next (frame first.alone (fun _ => ⟨rfl,rfl⟩) ⟨rfl,rfl,rfl⟩ rfl rfl (.start _))

theorem unwatch (first : ledger.Progress a x b) (owner : Subscriber) : ledger.Progress a x (b.unwatch owner) :=
  World.unwatch_keeps (P := ledger.Progress a x) (fun handle held => held.close handle)
    (fun handles held => held.setWatches owner handles) first

theorem rewatch (first : ledger.Progress a x b) (owner : Subscriber) (h : Nat) (files : List Path) :
    ledger.Progress a x (b.rewatch owner h files).2 := by
  refine World.rewatch_keeps (P := ledger.Progress a x) (fun handle held => held.close handle)
    (fun handles held => held.setWatches owner handles) (fun opens held => ?_) files first
  have opened : ledger.Progress _ {} _ := setHost_of_store held.alone (MemoryHost.store_watch opens)
  exact held.next (opened.next (.record opened.alone rfl))

/-- What operations do on their own counts for nothing. -/
theorem move (alone : ledger.Alone b) (move : Move ledger.issued a b c) : ledger.Progress b {} c := by
  cases move with
  | record entry silent plain => exact .record alone (by simp [Entry.reportTo?,plain])
  | write h path content state generates written =>
    obtain ⟨logger,config,issues⟩ := generates
    exact setHost alone fun here => absurd here (ledger.permitted issues)
  | instruct h command instructs =>
    refine setHost alone fun here => ?_
    subst here
    exact (Chronicle.start _).instructed command instructs
  | edit h path content edits =>
    refine setHost alone fun here => ?_
    subst here
    exact (Chronicle.start _).edited path content edits
  | prune h => exact setHost_of_store alone (MemoryHost.store_prune _)
  | generate t => exact modify alone ⟨rfl,rfl⟩ fun _ => ⟨rfl,rfl,rfl⟩
  | renewSink t renews =>
    have other : t ≠ ledger.session := ledger.permitted renews
    refine quiet (alone.renewSink other) ?_ rfl (.start _)
    rw [World.session_renewSink,if_neg other]
    exact ⟨rfl,rfl,rfl⟩
  | introduce t host hook logger options creates =>
    obtain ⟨others,own⟩ := ledger.permitted creates
    refine quiet (alone.modify rfl others own) ?_ rfl (.start _)
    rw [World.session_modify]
    split <;> exact ⟨rfl,rfl,rfl⟩
  | create | configure | activate => exact reach alone ⟨rfl,rfl⟩ fun _ => ⟨rfl,rfl,rfl⟩
  | install | drop => exact modify alone ⟨rfl,rfl⟩ fun _ => ⟨rfl,rfl,rfl⟩
  | wrap => exact frame alone (fun _ => ⟨rfl,rfl⟩) ⟨rfl,rfl,rfl⟩ rfl rfl (.start _)
  | release t =>
    unfold World.release
    split
    · exact (refl alone).unwatch _
    · exact refl alone
  | rewatchRecorder r h files => exact (refl alone).rewatch _ h files
  | unwatchRecorder r => exact (refl alone).unwatch _
  | dispose t =>
    have retired : ledger.Progress b {} (b.retire t) := reach alone ⟨rfl,rfl⟩ fun _ => ⟨rfl,rfl,rfl⟩
    exact retired.unwatch _

end Progress

namespace Keeps

theorem of_progress (progress : ledger.Alone a → ledger.Progress a {} b) : ledger.Keeps a b :=
  fun alone => ⟨[],progress alone,fun _ => rfl⟩

theorem refl (w : World MemoryHost) : ledger.Keeps w w := of_progress .refl

theorem trans (first : ledger.Keeps a b) (next : ledger.Keeps b c) : ledger.Keeps a c := by
  intro alone
  obtain ⟨outcomes,progress,none⟩ := first alone
  obtain ⟨more,progress',none'⟩ := next progress.alone
  refine ⟨outcomes ++ more,Tally.of_append outcomes more ▸ progress.trans progress',fun busy => ?_⟩
  rw [none busy,none' (progress.inFlight.trans busy)]
  rfl

/-- Whatever is at work, the same counts. -/
theorem during (keeps : ledger.Keeps (a.hold t) b) : ledger.Keeps a ((b.leave t).release t) := by
  have held : ledger.Keeps a (a.hold t) :=
    .of_progress fun alone => .frame alone (fun _ => ⟨rfl,rfl⟩) ⟨rfl,rfl,rfl⟩ rfl rfl (.start _)
  have left : ledger.Keeps b (b.leave t) :=
    .of_progress fun alone => .frame alone (fun _ => ⟨rfl,rfl⟩) ⟨rfl,rfl,rfl⟩ rfl rfl (.start _)
  have released : ledger.Keeps (b.leave t) ((b.leave t).release t) :=
    .of_progress fun alone => .move (a := b) alone (.release t)
  exact held.trans (keeps.trans (left.trans released))

/-- While a run is in flight, no other one happens. -/
theorem busy (keeps : ledger.Keeps a b) (alone : ledger.Alone a)
    (busy : (a.session ledger.session).inFlight = true) : ledger.Progress a {} b := by
  obtain ⟨outcomes,progress,none⟩ := keeps alone
  obtain rfl := none busy
  exact progress

/-- It may be relied upon that the session is alone. -/
theorem assuming (keeps : ledger.Alone a → ledger.Keeps a b) : ledger.Keeps a b := fun alone => keeps alone alone

end Keeps

section Runs

variable {env : Environment MemoryHost} (bears : Bears ledger.issued env ledger.Keeps)

include bears

section Others

/-! ### Runs of other sessions -/

variable (other : t ≠ ledger.session)

include other

/-- It is not this event sink that another session tells. -/
theorem Keeps.emit {event : Event} (run : env.emit t event w = some v) : ledger.Keeps w v := by
  rw [Environment.emit] at run
  split at run
  next sink owned =>
    refine .trans (.of_progress fun alone => ?_) (bears.heard run)
    refine .record alone ?_
    have elsewhere : sink ≠ ledger.sink := by
      rintro rfl
      exact other (alone.ownSink t owned)
    rw [Entry.reportTo?,Entry.report?]
    split <;> simp [elsewhere]
  · cases run; exact .refl w

theorem Keeps.runOnce (run : env.runOnce t w = some v) : ledger.Keeps w v := by
  rw [Environment.runOnce] at run
  split at run
  · cases run; exact .refl w
  next context ready =>
    have placed : (w.session t).host = some context.host := Session.host_of_context? ready
    refine .assuming fun alone => ?_
    have elsewhere : context.host ≠ ledger.host := fun here => other (alone.ownHost t (here ▸ placed))
    have writes {w : World MemoryHost} {path : Path} {content : String} {state : MemoryHost}
        (_ : Host.write path content (w.host context.host) = .ok state) :
        ledger.Keeps w (w.setHost context.host state) :=
      .of_progress fun alone => .setHost alone fun here => absurd here elsewhere
    simp only [Option.bind_eq_bind,Option.bind_eq_some_iff] at run
    obtain ⟨⟨result,made⟩,produce,run⟩ := run
    have started : ledger.Keeps w (w.start t context.config) :=
      .of_progress fun alone => .reach alone ⟨rfl,rfl⟩ fun own => absurd own other
    have done := started.trans (bears.produce writes produce)
    split at run
    all_goals
      simp only [Option.bind_eq_some_iff] at run
      obtain ⟨told,emit,run⟩ := run
      cases run
      exact (done.trans (Keeps.emit bears other emit)).trans
        (.of_progress fun alone => .reach alone ⟨rfl,rfl⟩ fun own => absurd own other)

theorem Keeps.drain (run : env.drain t w = some v) : ledger.Keeps w v := by
  refine Environment.drain.partial_correctness env t ledger.Keeps ?_ w v run
  intro drain ih w v run
  split at run
  · simp only [Option.bind_eq_bind,Option.bind_eq_some_iff] at run
    obtain ⟨next,once,run⟩ := run
    have heeded : ledger.Keeps w (w.heed t) :=
      .of_progress fun alone => .modify alone ⟨rfl,rfl⟩ fun own => absurd own other
    exact (heeded.trans (Keeps.runOnce bears other once)).trans (ih _ _ run)
  · cases run; exact .refl w

theorem Keeps.attempt (run : env.attempt t w = some v) : ledger.Keeps w v := by
  refine Environment.attempt.partial_correctness env t ledger.Keeps ?_ w v run
  intro attempt ih w v run
  split at run
  · cases run; exact .refl w
  · simp only [Option.bind_eq_bind,Option.bind_eq_some_iff] at run
    obtain ⟨drained,drain,run⟩ := run
    have locked : ledger.Keeps w (w.lock t) :=
      .of_progress fun alone => .modify alone ⟨rfl,rfl⟩ fun own => absurd own other
    have unlocked : ledger.Keeps drained (drained.unlock t) :=
      .of_progress fun alone => .modify alone ⟨rfl,rfl⟩ fun own => absurd own other
    have done := (locked.trans (Keeps.drain bears other drain)).trans unlocked
    split at run
    · exact done.trans (ih _ _ run)
    · cases run; exact done

end Others

section Own

/-! ### Runs of the session itself -/

omit bears in
theorem Progress.fail (first : ledger.Progress a {} b) (message : String) :
    ledger.Progress a ⟨0,[],[.failed message],none⟩ b :=
  {first with chronicle := first.chronicle.failed message}

omit bears in
theorem Progress.save {directory output : Path} {mode : Mode} {entries : List Locale.Entry} {artifact : Artifact}
    {state : MemoryHost} (first : ledger.Progress a {} b)
    (loaded : ledger.tools.load directory (b.host ledger.host) = .ok entries) (during : ledger.Progress b {} c)
    (generated : ledger.tools.generate entries .types mode = .ok artifact)
    (saved : (c.host ledger.host).write output artifact.primary = .ok state) :
    ledger.Progress a ⟨0,[],[.written output entries artifact.primary],none⟩ (c.setHost ledger.host state) := by
  have both := first.next during
  refine {both with alone := both.alone.of_ties (fun _ => ⟨rfl,rfl⟩) rfl,chronicle := ?_}
  rw [World.host_setHost,if_pos rfl]
  exact first.chronicle.written loaded during.chronicle generated saved

/-- What the session reports of a run. -/
def report : Except RunFault Report → Event
  | .ok report => .regenerated report.output report.locales.length report.digest.short
  | .error fault => .regenerationFailed fault.message

def ending : Except RunFault Report → Status
  | .ok report => .written report
  | .error fault => .failed fault.message

/-- What is written, if anything is, is what the result says. -/
theorem Progress.produce (ours : env.toolchain = ledger.tools) (alone : ledger.Alone w)
    (busy : (w.session ledger.session).inFlight = true) {generator logger : Option Nat} {config : Config} {result}
    (run : env.produce generator ledger.host logger config w = some (result,v)) :
    ∃ outcome : Outcome, outcome.event = report result ∧ outcome.status = ending result ∧
      ledger.Progress w ⟨0,[],[outcome],none⟩ v := by
  simp only [Environment.produce,Option.bind_eq_bind,Option.bind_eq_some_iff] at run
  obtain ⟨logged,log,⟨rendered,called⟩,render,run⟩ := run
  have first : ledger.Progress w {} logged := (bears.log log).busy alone busy
  have busy' := first.inFlight.trans busy
  have failing {u : World MemoryHost} {fault : RunFault} (before : ledger.Progress w {} u)
      (run : (env.log logger ("write file failed: " ++ fault.message) u).bind
        (fun w => some (Except.error fault,w)) = some (result,v)) : ∃ outcome : Outcome,
        outcome.event = report result ∧ outcome.status = ending result ∧
        ledger.Progress w ⟨0,[],[outcome],none⟩ v := by
    obtain ⟨told,tell,same⟩ := Option.bind_eq_some_iff.mp run
    cases same
    have after := (bears.log tell).busy before.alone (before.inFlight.trans busy)
    exact ⟨.failed fault.message,rfl,rfl,(before.next after).fail _⟩
  rw [Environment.render] at render
  split at render
  next fault _ => cases render; exact failing first run
  next entries loaded =>
    rw [ours] at loaded
    simp only [Option.bind_eq_bind,Option.bind_eq_some_iff] at render
    obtain ⟨heard,call,render⟩ := render
    -- What was loaded stays the input of the run, whatever the generator does to the host meanwhile.
    have during : ledger.Progress logged {} heard := (bears.announceCall call).busy first.alone busy'
    split at render
    next cause _ => cases render; exact failing (first.next during) run
    next artifact generated =>
      rw [ours] at generated
      cases render
      cases saved : Host.write config.outputPath artifact.primary (called.host ledger.host) with
      | error fault =>
        simp only [Environment.save,saved] at run
        exact failing (first.next during) run
      | ok state =>
        simp only [Environment.save,saved,Option.bind_eq_some_iff] at run
        obtain ⟨told,tell,run⟩ := run
        cases run
        have written := first.save loaded during generated saved
        have after := (bears.log tell).busy written.alone (written.inFlight.trans busy)
        have reported : (Outcome.written config.outputPath entries artifact.primary).event = report (.ok
            ⟨config.outputPath,entries.map (·.name),Digest.ofText artifact.primary⟩) := by
          simp [Outcome.event,report]
        exact ⟨_,reported,rfl,(written.next after).next (.record after.alone rfl)⟩

omit bears in
/-- A change to the session that counts. -/
theorem Progress.mark (alone : ledger.Alone w) {milestone : Milestone} {f : Session → Session} {runs : Nat}
    {last : Option Status}
    (ties : ∀ session, (f session).sink = session.sink ∧ (f session).host = session.host)
    (inFlight : ∀ session, (f session).inFlight = session.inFlight)
    (counted : ∀ session, (f session).runs = session.runs + runs)
    (noted : ∀ session, (f session).last = last.or session.last) :
    ledger.Progress w ⟨runs,[],[],last⟩ (w.reach ledger.session milestone f) := by
  have own : (w.reach ledger.session milestone f).session ledger.session = f (w.session ledger.session) := by
    rw [World.session_reach,if_pos rfl]
  refine ⟨alone.of_ties (fun t => ?_) rfl,?_,?_,?_,.start _,?_⟩
  · rw [World.session_reach]
    split
    next here => exact here ▸ ties _
    · exact ⟨rfl,rfl⟩
  · rw [own,inFlight]
  · rw [own,counted]
  · rw [reports,World.reach,World.record,List.filterMap_append]
    rfl
  · rw [own,noted]

/-- The session tells its event sink. -/
theorem Progress.emit {event : Event} (reported : event.isReport = true) (alone : ledger.Alone w)
    (busy : (w.session ledger.session).inFlight = true) (run : env.emit ledger.session event w = some v) :
    ledger.Progress w ⟨0,[event],[],none⟩ v := by
  rw [Environment.emit,alone.sink] at run
  have told : ledger.Progress w ⟨0,[event],[],none⟩ (w.record (.emitted ledger.sink event)) := by
    refine ⟨alone.of_ties (fun _ => ⟨rfl,rfl⟩) rfl,rfl,rfl,?_,.start _,rfl⟩
    rw [reports,World.record,List.filterMap_append]
    simp [reports,Entry.reportTo?,Entry.report?,reported]
  exact told.next ((bears.heard run).busy told.alone busy)

/-- One run counts once, is reported once and ends once, and writes what it reports. -/
theorem Progress.runOnce (ours : env.toolchain = ledger.tools) (alone : ledger.Alone w)
    (busy : (w.session ledger.session).inFlight = true) (run : env.runOnce ledger.session w = some v) :
    ∃ outcomes, ledger.Progress w (.of outcomes) v := by
  rw [Environment.runOnce] at run
  split at run
  · cases run; exact ⟨[],.refl alone⟩
  next context ready =>
    have placed : context.host = ledger.host := alone.host _ (Session.host_of_context? ready)
    simp only [Option.bind_eq_bind,Option.bind_eq_some_iff] at run
    obtain ⟨⟨result,made⟩,produce,run⟩ := run
    have started : ledger.Progress w ⟨1,[],[],none⟩ (w.start ledger.session context.config) :=
      .mark alone (fun _ => ⟨rfl,rfl⟩) (fun _ => rfl) (fun _ => rfl) fun _ => rfl
    rw [placed] at produce
    obtain ⟨outcome,event,status,done⟩ :=
      Progress.produce bears ours started.alone (started.inFlight.trans busy) produce
    have made' := started.trans done
    have ends {told : World MemoryHost} (emit : env.emit ledger.session (report result) made = some told)
        (run : some (told.finish ledger.session (ending result)) = some v) :
        ∃ outcomes, ledger.Progress w (.of outcomes) v := by
      cases run
      have reported : (report result).isReport = true := by cases result <;> rfl
      have told' := Progress.emit bears reported made'.alone (made'.inFlight.trans busy) emit
      have ended : ledger.Progress told ⟨0,[],[],some (ending result)⟩ (told.finish ledger.session (ending result)) :=
        .mark told'.alone (fun _ => ⟨rfl,rfl⟩) (fun _ => rfl) (fun _ => rfl) fun _ => rfl
      rw [← event] at told'
      rw [← status] at ended ⊢
      exact ⟨[outcome],(made'.trans told').trans ended⟩
    cases result with
    | ok report =>
      simp only [Option.bind_eq_some_iff] at run
      obtain ⟨told,emit,run⟩ := run
      exact ends emit run
    | error fault =>
      simp only [Option.bind_eq_some_iff] at run
      obtain ⟨told,emit,run⟩ := run
      exact ends emit run

theorem Progress.drain (ours : env.toolchain = ledger.tools) (alone : ledger.Alone w)
    (busy : (w.session ledger.session).inFlight = true) (run : env.drain ledger.session w = some v) :
    ∃ outcomes, ledger.Progress w (.of outcomes) v := by
  refine Environment.drain.partial_correctness env ledger.session (fun w v => ledger.Alone w →
    (w.session ledger.session).inFlight = true → ∃ outcomes, ledger.Progress w (.of outcomes) v) ?_ w v run alone busy
  intro drain ih w v run alone busy
  split at run
  · simp only [Option.bind_eq_bind,Option.bind_eq_some_iff] at run
    obtain ⟨next,once,run⟩ := run
    have heeded : ledger.Progress w {} (w.heed ledger.session) := .modify alone ⟨rfl,rfl⟩ fun _ => ⟨rfl,rfl,rfl⟩
    obtain ⟨outcomes,first⟩ := Progress.runOnce bears ours heeded.alone (heeded.inFlight.trans busy) once
    have once := Tally.empty_append (.of outcomes) ▸ heeded.trans first
    obtain ⟨more,others⟩ := ih _ _ run once.alone (once.inFlight.trans busy)
    exact ⟨outcomes ++ more,Tally.of_append outcomes more ▸ once.trans others⟩
  · cases run; exact ⟨[],.refl alone⟩

omit bears in
/-- What happened under the lock has happened once it is given back. -/
theorem Progress.unlock (idle : (w.session ledger.session).inFlight = false)
    (during : ledger.Progress (w.lock ledger.session) x v) : ledger.Progress w x (v.unlock ledger.session) := by
  have before : (w.lock ledger.session).session ledger.session =
      {w.session ledger.session with inFlight := true} := by rw [World.lock,World.session_modify,if_pos rfl]
  have after : (v.unlock ledger.session).session ledger.session =
      {v.session ledger.session with inFlight := false} := by rw [World.unlock,World.session_modify,if_pos rfl]
  have runs := during.runs
  have last := during.last
  rw [before] at runs last
  refine ⟨during.alone.of_ties (fun t => ?_) rfl,?_,?_,during.events,during.chronicle,?_⟩
  · rw [World.unlock,World.session_modify]
    split <;> exact ⟨rfl,rfl⟩
  · rw [after,idle]
  · rw [after,runs]
  · rw [after,last]

theorem Keeps.attemptOwn (ours : env.toolchain = ledger.tools) (run : env.attempt ledger.session w = some v) :
    ledger.Keeps w v := by
  refine Environment.attempt.partial_correctness env ledger.session ledger.Keeps ?_ w v run
  intro attempt ih w v run
  split at run
  · cases run; exact .refl w
  next idle =>
    simp only [Option.bind_eq_bind,Option.bind_eq_some_iff] at run
    obtain ⟨drained,drain,run⟩ := run
    have idle : (w.session ledger.session).inFlight = false := by simpa using idle
    have done : ledger.Keeps w (drained.unlock ledger.session) := by
      intro alone
      have locked : ledger.Alone (w.lock ledger.session) := by
        refine alone.of_ties (fun t => ?_) rfl
        rw [World.lock,World.session_modify]
        split <;> exact ⟨rfl,rfl⟩
      have busy : ((w.lock ledger.session).session ledger.session).inFlight = true := by
        rw [World.lock,World.session_modify,if_pos rfl]
      obtain ⟨outcomes,during⟩ := Progress.drain bears ours locked busy drain
      exact ⟨outcomes,during.unlock idle,fun busy => by rw [idle] at busy; cases busy⟩
    split at run
    · exact done.trans (ih _ _ run)
    · cases run; exact done

end Own

theorem Keeps.regenerate (ours : env.toolchain = ledger.tools) (run : env.regenerate t w = some v) :
    ledger.Keeps w v := by
  have asked : ledger.Keeps w (w.request t) := .of_progress fun alone => .reach alone ⟨rfl,rfl⟩ fun _ => ⟨rfl,rfl,rfl⟩
  refine asked.trans ?_
  by_cases own : t = ledger.session
  · subst own; exact .attemptOwn bears ours run
  · exact .attempt bears own run

end Runs

theorem Keeps.carries {env : Environment MemoryHost} (ours : env.toolchain = ledger.tools)
    (heard : ∀ {entry w w'}, env.respond entry w = some w' → ledger.Keeps w w') :
    Carries ledger.issued env ledger.Keeps :=
  have bears : Bears ledger.issued env ledger.Keeps :=
    ⟨.refl,.trans,heard,fun before move => before.trans (.of_progress fun alone => .move alone move),.during⟩
  {bears with
    rewatch := fun before logged _ _ _ =>
      (before.trans logged).trans (.of_progress fun alone => (Progress.refl alone).rewatch _ _ _)
    regenerate := Keeps.regenerate bears ours}

end Ledger

/-- Commands of some kind lead from one world to another by one toolchain, and no others are issued meanwhile. -/
inductive Toolchain.Leads (tools : Toolchain) (issued : Command → Prop) :
    World MemoryHost → World MemoryHost → Prop where
  | refl (w : World MemoryHost) : tools.Leads issued w w
  | perform {a b c : World MemoryHost} {behaviour : Behaviour} {depth : Nat} {command : Command} {reply : Reply}
      (before : tools.Leads issued a b) (allowed : issued command)
      (issues : ∀ entry w, (behaviour entry w).Issues issued)
      (run : (Environment.scripted tools behaviour depth).perform command b = some (reply,c)) : tools.Leads issued a c

theorem Ledger.Keeps.leads {ledger : Ledger} {a b : World MemoryHost}
    (leads : ledger.tools.Leads ledger.issued a b) : ledger.Keeps a b := by
  induction leads with
  | refl => exact .refl a
  | @perform b c behaviour depth command reply before allowed issues run ih =>
    have carried : Carries ledger.issued (Environment.scripted ledger.tools behaviour depth) ledger.Keeps :=
      Carries.scripted .refl (fun env ours heard => Keeps.carries ours heard) issues depth
    exact ih.trans (carried.perform allowed run)

/-- Whenever no operation is executing, the reports of a session that is alone on its host account for all its runs.
There are as many as runs; the outputs that they name are the writes of the host, in order; each that names one gives
the number of the locales and the digest of the text that was written; and the last one says how the last run ended. -/
theorem reports_account {ledger : Ledger} {start w : World MemoryHost} (fresh : start.Fresh) (blank : start.trace = [])
    (unwritten : (start.host ledger.host).writes = []) (alone : ledger.Alone start)
    (leads : ledger.tools.Leads ledger.issued start w) :
    (w.session ledger.session).runs = (ledger.reports w).length ∧
    (w.host ledger.host).writes = (ledger.reports w).filterMap Event.output? ∧
    ∃ outcomes : List Outcome, ledger.reports w = outcomes.map Outcome.event ∧
      Chronicle ledger.tools ledger.issued ledger.host (start.host ledger.host) outcomes (w.host ledger.host) ∧
      (w.session ledger.session).last = outcomes.getLast?.map Outcome.status := by
  obtain ⟨outcomes,progress,-⟩ := Ledger.Keeps.leads leads alone
  have events : ledger.reports w = outcomes.map Outcome.event := by
    rw [progress.events,Ledger.reports,blank]
    rfl
  have runs : (w.session ledger.session).runs = outcomes.length := by
    rw [progress.runs,fresh.sessions]
    exact Nat.zero_add _
  have last : (w.session ledger.session).last = outcomes.getLast?.map Outcome.status := by
    rw [progress.last,fresh.sessions]
    exact Option.or_none
  have nobody (path : Path) (content : String) : ¬ ledger.issued (.host ledger.host (.write path content)) :=
    fun issues => ledger.permitted issues rfl
  refine ⟨?_,?_,outcomes,events,progress.chronicle,last⟩
  · rw [runs,events,List.length_map]
  · rw [progress.chronicle.writes_eq nobody,unwritten,events]
    rfl

section Rephrased

/-- Outputs become read-only, and the generator edits a locale file. -/
def rephrasingLedger : Ledger where
  tools := .copying
  session := 0
  host := 0
  sink := 0
  issued command :=
    command ∈ [.create 0 (some 0) 0 0 plainOptions,.regenerate 0,.host 0 (.setReadOnly plainContext.config.outputPath),
      .edit 0 ⟨"/p/locales/en.yaml"⟩ "c: d"]
  permitted issues := by
    simp only [List.mem_cons,List.not_mem_nil,or_false] at issues
    obtain rfl | rfl | rfl | rfl := issues
    · exact ⟨fun _ => rfl,fun _ _ => Option.some.inj ∘ Eq.symm⟩
    all_goals trivial

/-- The first run writes what it loaded before the generator edited it, and the second cannot write. -/
theorem rephrased_reports_account : ∃ w : World MemoryHost,
    Toolchain.copying.Leads rephrasingLedger.issued .vacant w ∧ (w.session 0).runs = 2 ∧
    (rephrasingLedger.reports w).length = 2 ∧
    (rephrasingLedger.reports w).filterMap Event.output? = [plainContext.config.outputPath] ∧
    ∃ outcomes : List Outcome, rephrasingLedger.reports w = outcomes.map Outcome.event ∧
      Chronicle .copying rephrasingLedger.issued 0 (World.vacant.host 0) outcomes (w.host 0) := by
  have ran : (Environment.rephrasing.regenerateOnce 0 .manned).any (fun v =>
      (Environment.rephrasing.regenerateOnce 0 (v.setHost 0
        ((v.host 0).perform (.setReadOnly plainContext.config.outputPath)).2)).any fun w =>
          (v.session 0).dropped = false ∧ (w.session 0).runs = 2 ∧
          (w.host 0).writes = [plainContext.config.outputPath]) = true := by
    decide +kernel
  obtain ⟨v,first,ran⟩ := (Option.any_eq_true _ _).mp ran
  obtain ⟨w,second,facts⟩ := (Option.any_eq_true _ _).mp ran
  obtain ⟨held,runs,writes⟩ := of_decide_eq_true facts
  have issues (entry : Entry) (w : World MemoryHost) :
      (Behaviour.rephrasing entry w).Issues rephrasingLedger.issued := by
    unfold Behaviour.rephrasing
    split
    · exact ⟨by simp [rephrasingLedger],fun _ => trivial⟩
    · trivial
  have created : Environment.rephrasing.perform (.create 0 (some 0) 0 0 plainOptions) .vacant =
      some (.service 0,.manned) := by rfl
  have made : Environment.rephrasing.perform (.regenerate 0) .manned = some (.done,v) := by
    simp [Environment.perform,Environment.onSession,manned_held,Environment.regenerate_of_once first]
  have again : Environment.rephrasing.perform (.regenerate 0) (v.setHost 0
      ((v.host 0).perform (.setReadOnly plainContext.config.outputPath)).2) = some (.done,w) := by
    simp [Environment.perform,Environment.onSession,held,Environment.regenerate_of_once second]
  have secured : Environment.rephrasing.perform (.host 0 (.setReadOnly plainContext.config.outputPath)) v =
      some (.done,v.setHost 0 ((v.host 0).perform (.setReadOnly plainContext.config.outputPath)).2) := rfl
  have creates : rephrasingLedger.issued (.create 0 (some 0) 0 0 plainOptions) := by simp [rephrasingLedger]
  have regenerates : rephrasingLedger.issued (.regenerate 0) := by simp [rephrasingLedger]
  have protects : rephrasingLedger.issued (.host 0 (.setReadOnly plainContext.config.outputPath)) := by
    simp [rephrasingLedger]
  have once : Toolchain.copying.Leads rephrasingLedger.issued .vacant v :=
    .perform (.perform (.refl _) creates issues created) regenerates issues made
  have leads : Toolchain.copying.Leads rephrasingLedger.issued .vacant w :=
    .perform (once.perform protects issues secured) regenerates issues again
  have alone : rephrasingLedger.Alone .vacant := by
    refine ⟨rfl,fun t mine => ?_,Nat.zero_lt_one,fun t mine => ?_,fun h mine => ?_⟩
    · cases t with
      | zero => rfl
      | succ t => cases mine
    · cases t <;> cases mine
    · cases mine
  obtain ⟨counted,outputs,outcomes,reported,chronicle,-⟩ :=
    @reports_account rephrasingLedger .vacant w World.vacant_fresh rfl rfl alone leads
  exact ⟨w,leads,runs,counted.symm.trans runs,outputs.symm.trans writes,outcomes,reported,chronicle⟩

end Rephrased
end Phrasebook
