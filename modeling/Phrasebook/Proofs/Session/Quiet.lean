import Phrasebook.Session.Scripted

/-! Collaborators that only listen. What they are told comes back at once and leaves nothing behind but
a remark in the trace: `Quiet.log`, `Quiet.emit`, `Quiet.announceCall`. -/
namespace Phrasebook

/-- Collaborators hear everything and do nothing. -/
def Environment.Quiet (env : Environment MemoryHost) : Prop := ∀ entry w, env.respond entry w = some w

theorem Environment.scripted_quiet (tools : Toolchain) (depth : Nat) :
    (Environment.scripted tools (fun _ _ => .done) depth).Quiet := by
  intro entry w
  cases depth <;> rfl

/-- Whatever the locale files say, the same is generated, and nobody does anything about it. -/
def Environment.stamping : Environment MemoryHost :=
  .scripted ⟨fun _ => .ok default,fun _ _ _ => .ok (.single "")⟩ (fun _ _ => .done) 0

theorem Environment.stamping_quiet : Environment.stamping.Quiet := scripted_quiet _ _

def Entry.query? : Entry → Option Query
  | .asked query => some query
  | _ => none

/-- A session but for how often its generator was called. -/
def Session.uncalled (session : Session) : Session := {session with generations := 0}

namespace World

/-- What the resolvers were asked so far. -/
def queries (w : World MemoryHost) : List Query := w.trace.filterMap Entry.query?

theorem queries_record (entry : Entry) (w : World MemoryHost) :
    (w.record entry).queries = w.queries ++ entry.query?.toList := by
  cases h : entry.query? <;> simp [queries,record,h]

/-- The worlds differ by remarks and generator calls alone. -/
structure Heard (before after : World MemoryHost) : Prop where
  sessions : ∀ s, (after.session s).uncalled = (before.session s).uncalled
  hosts : ∀ h, after.host h = before.host h
  hooks : after.hooks = before.hooks
  holds : after.holds = before.holds
  histories : ∀ s, after.history s = before.history s
  queries : after.queries = before.queries

namespace Heard

variable {a b c w : World MemoryHost}

theorem refl (w : World MemoryHost) : w.Heard w := ⟨fun _ => rfl,fun _ => rfl,rfl,rfl,fun _ => rfl,rfl⟩

theorem trans (first : a.Heard b) (next : b.Heard c) : a.Heard c where
  sessions s := (next.sessions s).trans (first.sessions s)
  hosts h := (next.hosts h).trans (first.hosts h)
  hooks := next.hooks.trans first.hooks
  holds := next.holds.trans first.holds
  histories s := (next.histories s).trans (first.histories s)
  queries := next.queries.trans first.queries

theorem record {entry : Entry} (silent : ∀ s, entry.milestone? s = none) (unasked : entry.query? = none) :
    w.Heard (w.record entry) where
  sessions _ := rfl
  hosts _ := rfl
  hooks := rfl
  holds := rfl
  histories s := by simp [silent s]
  queries := by simp [queries_record,unasked]

/-- Whatever else a session shows is the same. -/
theorem same (heard : a.Heard b) {α : Type} (shown : Session → α)
    (uncalled : ∀ session, shown session.uncalled = shown session) (s : Nat) :
    shown (b.session s) = shown (a.session s) := by
  rw [← uncalled,heard.sessions s,uncalled]

end Heard
end World

namespace Environment.Quiet

variable {env : Environment MemoryHost} (quiet : env.Quiet) (w : World MemoryHost) (s : Nat)

include quiet

theorem announce {entry : Entry} (silent : ∀ s, entry.milestone? s = none) (unasked : entry.query? = none) :
    ∃ v, w.Heard v ∧ env.announce entry w = some v :=
  ⟨w.record entry,.record silent unasked,quiet entry _⟩

theorem log (logger : Option Nat) (line : String) : ∃ v, w.Heard v ∧ env.log logger line w = some v := by
  cases logger with
  | none => exact ⟨w,.refl w,rfl⟩
  | some logger => exact quiet.announce w (fun _ => rfl) rfl

theorem emit (event : Event) : ∃ v, w.Heard v ∧ env.emit s event w = some v := by
  rw [Environment.emit]
  split
  · exact quiet.announce w (fun _ => rfl) rfl
  · exact ⟨w,.refl w,rfl⟩

theorem announceCall (generator : Option Nat) : ∃ v, w.Heard v ∧ env.announceCall generator w = some v := by
  cases generator with
  | none => exact ⟨w,.refl w,rfl⟩
  | some s =>
    have called : w.Heard (w.modify s fun session => {session with generations := session.generations + 1}) := by
      refine ⟨fun t => ?_,fun _ => rfl,rfl,rfl,fun _ => rfl,rfl⟩
      rw [World.session_modify]
      split <;> rfl
    obtain ⟨v,heard,announced⟩ := quiet.announce
      (w.modify s fun session => {session with generations := session.generations + 1})
      (fun _ => rfl : ∀ t, (Entry.generating s ((w.session s).generations + 1)).milestone? t = none) rfl
    refine ⟨v,called.trans heard,?_⟩
    simpa [Environment.announceCall] using announced

end Environment.Quiet
end Phrasebook
