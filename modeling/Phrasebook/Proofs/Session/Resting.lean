import Phrasebook.Proofs.Host.Order
import Phrasebook.Proofs.Session.Accounting

/-! What holds between commands, whatever collaborators do in the middle of one. No run is in flight, no layer or
watch is at work, and as long as hosts keep their files in order, no watch set lists a file twice: `Rests`. -/
namespace Phrasebook

/-- Hosts keep their files in order, and watch sets list no file twice. -/
structure World.Neat (w : World MemoryHost) : Prop where
  tidy : ∀ h, (w.host h).Tidy
  apart : ∀ s, (w.session s).watches.Pairwise fun a b => ¬a.path.same b.path = true

/-- The same runs are in flight, the same sessions are held, and what was neat is so still. -/
structure Rests (a b : World MemoryHost) : Prop where
  inFlight : ∀ s, (b.session s).inFlight = (a.session s).inFlight
  holds : b.holds = a.holds
  neat : a.Neat → b.Neat

namespace Rests

variable {a b c w : World MemoryHost} {s : Nat}

theorem refl (w : World MemoryHost) : Rests w w := ⟨fun _ => rfl,rfl,id⟩

theorem trans (first : Rests a b) (next : Rests b c) : Rests a c :=
  ⟨fun s => (next.inFlight s).trans (first.inFlight s),next.holds.trans first.holds,next.neat ∘ first.neat⟩

/-- Watch sets are as they were, or empty. -/
theorem keeping (holds : b.holds = a.holds) (hosts : ∀ h, (a.host h).Tidy → (b.host h).Tidy)
    (sessions : ∀ s, (b.session s).inFlight = (a.session s).inFlight ∧
      ((b.session s).watches = (a.session s).watches ∨ (b.session s).watches = [])) : Rests a b where
  inFlight s := (sessions s).1
  holds := holds
  neat neat := by
    refine ⟨fun h => hosts h (neat.tidy h),fun s => ?_⟩
    rcases (sessions s).2 with same | none
    · exact same ▸ neat.apart s
    · exact none ▸ .nil

theorem setHost {h : Nat} {state : MemoryHost} (tidy : (w.host h).Tidy → state.Tidy) : Rests w (w.setHost h state) := by
  refine keeping rfl (fun g before => ?_) fun s => ⟨rfl,.inl rfl⟩
  rw [World.host_setHost]
  split
  next here => subst g; exact tidy before
  · exact before

theorem modify {f : Session → Session} (inFlight : (f (w.session s)).inFlight = (w.session s).inFlight)
    (watches : (f (w.session s)).watches = (w.session s).watches) : Rests w (w.modify s f) := by
  refine keeping rfl (fun h => id) fun t => ?_
  rw [World.session_modify]
  split
  next here => subst t; exact ⟨inFlight,.inl watches⟩
  · exact ⟨rfl,.inl rfl⟩

theorem reach {milestone : Milestone} {f : Session → Session}
    (inFlight : (f (w.session s)).inFlight = (w.session s).inFlight)
    (watches : (f (w.session s)).watches = (w.session s).watches) : Rests w (w.reach s milestone f) :=
  (modify inFlight watches).trans (keeping rfl (fun _ => id) fun _ => ⟨rfl,.inl rfl⟩)

theorem unwatch (owner : Subscriber) : Rests w (w.unwatch owner) := by
  refine keeping (w.holds_unwatch _) (fun h tidy => tidy.of_store (World.store_unwatch w h owner)) fun t => ?_
  rw [World.session_unwatch]
  split
  · exact ⟨rfl,.inr rfl⟩
  · exact ⟨rfl,.inl rfl⟩

theorem rewatch_recorder (r h : Nat) (files : List Path) : Rests w (w.rewatch (.recorder r) h files).2 := by
  refine keeping (w.holds_rewatch _ _ _) (fun g tidy => tidy.of_store (World.store_rewatch w g h _ files)) fun t => ?_
  rcases w.rewatch_eq (.recorder r) h files with same | ⟨handles,same⟩ <;> rw [same] <;>
    exact ⟨by simp,.inl (by simp)⟩

/-- Files that were listed on a host in order are all different. -/
theorem rewatch {h : Nat} {files : List Path} {path : Path} (same : Rests a b)
    (listed : (a.host h).list path = .ok files) : Rests a (b.rewatch (.session s) h files).2 where
  inFlight t := by
    obtain ⟨handles,session⟩ := World.session_of_rewatch b h (.session s) files t
    rw [session]
    exact same.inFlight t
  holds := (b.holds_rewatch h _ files).trans same.holds
  neat neat := by
    refine ⟨fun g => ((same.neat neat).tidy g).of_store (World.store_rewatch b g h _ files),fun t => ?_⟩
    by_cases own : t = s
    · subst own
      rcases World.watches_rewatch (.session t) h files b with ⟨paths,-⟩ | none
      · have apart := MemoryHost.list_apart (neat.tidy h) listed
        rw [← paths] at apart
        exact List.pairwise_map.mp apart
      · change ((b.rewatch (.session t) h files).2.watches (.session t)).Pairwise _
        rw [none]
        exact .nil
    · have other : ((b.rewatch (.session s) h files).2.session t).watches = (b.session t).watches := by
        rcases b.rewatch_eq (.session s) h files with eq | ⟨handles,eq⟩ <;> simp [eq,Ne.symm own]
      rw [other]
      exact (same.neat neat).apart t

theorem release (t : Nat) : Rests w (w.release t) := by
  unfold World.release
  split
  · exact unwatch _
  · exact refl w

theorem move {issued : Command → Prop} (before : Rests a b) (move : Move issued a b c) : Rests a c := by
  refine before.trans ?_
  cases move with
  | record | wrap => exact keeping rfl (fun _ => id) fun _ => ⟨rfl,.inl rfl⟩
  | write h path content state _ written => exact setHost fun tidy => tidy.write written
  | instruct h command => exact setHost fun tidy => tidy.perform command
  | edit h path content => exact setHost fun tidy => tidy.insert
  | prune h => exact setHost id
  | renewSink t =>
    refine keeping rfl (fun _ => id) fun s => ?_
    rw [World.session_renewSink]
    split
    · exact ⟨rfl,.inl rfl⟩
    · exact ⟨rfl,.inl rfl⟩
  | generate | introduce | install | drop => exact modify rfl rfl
  | create | configure | activate => exact reach rfl rfl
  | release t => exact release t
  | rewatchRecorder r h files => exact rewatch_recorder r h files
  | unwatchRecorder r => exact unwatch _
  | dispose t =>
    have retired : Rests b (b.retire t) := reach rfl rfl
    exact retired.trans (unwatch _)

/-- What sets to work is done in the end. -/
theorem during (last : Rests (a.hold s) b) : Rests a ((b.leave s).release s) := by
  have left : Rests a (b.leave s) := by
    refine ⟨last.inFlight,by simp [World.leave,World.hold,last.holds],fun neat => ?_⟩
    have neat := last.neat ⟨neat.tidy,neat.apart⟩
    exact ⟨neat.tidy,neat.apart⟩
  exact left.trans (release s)

section Runs

variable {issued : Command → Prop} {env : Environment MemoryHost} (bears : Bears issued env Rests)
  {v : World MemoryHost}

include bears

theorem runOnce (run : env.runOnce s w = some v) : Rests w v := by
  rw [Environment.runOnce] at run
  split at run
  · cases run; exact refl w
  next context _ =>
    simp only [Option.bind_eq_bind,Option.bind_eq_some_iff] at run
    obtain ⟨⟨result,made⟩,produce,run⟩ := run
    have started : Rests w (w.start s context.config) := reach rfl rfl
    have done := started.trans (bears.produce (fun written => setHost fun tidy => tidy.write written) produce)
    split at run
    all_goals
      simp only [Option.bind_eq_some_iff] at run
      obtain ⟨told,emit,run⟩ := run
      cases run
      have told : Rests made told := bears.tell (fun _ _ => keeping rfl (fun _ => id) fun _ => ⟨rfl,.inl rfl⟩) emit
      exact (done.trans told).trans (reach rfl rfl)

theorem drain (run : env.drain s w = some v) : Rests w v := by
  refine Environment.drain.partial_correctness env s Rests ?_ w v run
  intro drain ih w v run
  split at run
  · simp only [Option.bind_eq_bind,Option.bind_eq_some_iff] at run
    obtain ⟨next,once,run⟩ := run
    have heeded : Rests w (w.heed s) := modify rfl rfl
    exact (heeded.trans (runOnce bears once)).trans (ih _ _ run)
  · cases run; exact refl w

omit bears in
/-- What is locked first and unlocked in the end is as it was. -/
theorem unlock (idle : (w.session s).inFlight = false) (during : Rests (w.lock s) v) : Rests w (v.unlock s) where
  inFlight t := by
    have same := during.inFlight t
    simp only [World.lock,World.unlock,World.session_modify] at same ⊢
    split
    next here => exact here ▸ idle.symm
    next other => rwa [if_neg other] at same
  holds := during.holds
  neat neat := by
    have locked : (w.lock s).Neat := by
      refine ⟨neat.tidy,fun t => ?_⟩
      rw [World.lock,World.session_modify]
      split
      · exact neat.apart t
      · exact neat.apart t
    refine ⟨(during.neat locked).tidy,fun t => ?_⟩
    rw [World.unlock,World.session_modify]
    split
    · exact (during.neat locked).apart t
    · exact (during.neat locked).apart t

/-- A regeneration gives the lock back. -/
theorem regenerate (run : env.regenerate s w = some v) : Rests w v := by
  have asked : Rests w (w.request s) := reach rfl rfl
  refine asked.trans ?_
  refine Environment.attempt.partial_correctness env s Rests ?_ _ v run
  intro attempt ih w v run
  split at run
  · cases run; exact refl w
  next idle =>
    simp only [Option.bind_eq_bind,Option.bind_eq_some_iff] at run
    obtain ⟨drained,drain,run⟩ := run
    have done := unlock (by simpa using idle) (Rests.drain bears drain)
    split at run
    · exact done.trans (ih _ _ run)
    · cases run; exact done

end Runs

theorem carries {issued : Command → Prop} (env : Environment MemoryHost)
    (heard : ∀ {entry w w'}, env.respond entry w = some w' → Rests w w') : Carries issued env Rests :=
  have bears : Bears issued env Rests := ⟨refl,trans,heard,move,during⟩
  {bears with
    rewatch := fun before logged _ _ listed => before.trans (rewatch logged listed)
    regenerate := regenerate bears}

theorem scripted (tools : Toolchain) (behaviour : Behaviour) (depth : Nat) :
    Carries (fun _ => True) (Environment.scripted tools behaviour depth) Rests :=
  .scripted refl (fun env _ heard => carries env heard) (fun _ _ => Script.issues_any _) depth

theorem leadsBy {issued : Command → Prop} (leads : LeadsBy issued a b) : Rests a b :=
  Carries.leadsBy refl carries leads

end Rests

/-- Between commands no run is in flight. -/
theorem Reachable.idle {w : World MemoryHost} (reached : Reachable w) (s : Nat) : (w.session s).inFlight = false := by
  obtain ⟨start,fresh,leads⟩ := reached
  rw [(Rests.leadsBy leads.by_any).inFlight s,fresh.sessions s]

/-- Between commands nothing is at work. -/
theorem Reachable.unheld {w : World MemoryHost} (reached : Reachable w) : w.holds = [] := by
  obtain ⟨start,fresh,leads⟩ := reached
  rw [(Rests.leadsBy leads.by_any).holds,fresh.holds]

theorem World.Fresh.neat {w : World MemoryHost} (fresh : w.Fresh) (tidy : ∀ h, (w.host h).Tidy) : w.Neat := by
  refine ⟨tidy,fun s => ?_⟩
  rw [fresh.sessions s]
  exact .nil

end Phrasebook
