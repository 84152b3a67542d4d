import Phrasebook.Proofs.Session.Accounting
import Phrasebook.Proofs.Session.Production

/-! No edit of a watched file is missed. While a run of the session is in flight, an edit leaves a request
behind; otherwise it is followed by a run at once (`Tends`). So when a regeneration comes back, what it
wrote last is what is to be generated then: `regenerate_current`. -/
namespace Phrasebook

/-- The session has an open watch on the path. -/
def World.Watched (s h : Nat) (path : Path) (w : World MemoryHost) : Prop :=
  ∃ watch ∈ (w.host h).watches, watch.path.same path = true ∧ watch.subscriber = .session s

/-- The path is that of a listed locale file, however it is spelled. -/
def World.Listed (context : Context) (path : Path) (w : World MemoryHost) : Prop :=
  ∃ files, Host.list context.config.localesDirectory (w.host context.host) = .ok files ∧
    ∃ file ∈ files, file.same path = true

/-- A session with its options, and the world in which it is looked at first. -/
structure Site where
  tools : Toolchain
  session : Nat
  context : Context
  start : World MemoryHost

namespace Site

variable (site : Site)

/-- Writing to the path neither touches the session's output nor its locale files. -/
def Apart (path : Path) : Prop :=
  ¬site.context.config.outputPath.same path = true ∧
    MemoryHost.isLocaleFileOf site.context.config.localesDirectory path = false

/-- The output is what is generated from the locale files as they are. -/
def Fits (w : World MemoryHost) : Prop :=
  ∃ entries source,
    site.tools.rendering .types site.context.config (w.host site.context.host) = .ok (entries,source) ∧
    (w.host site.context.host).file? site.context.config.outputPath = some source

/-- If the last run wrote, its output still fits. -/
def Current (w : World MemoryHost) : Prop :=
  ∀ report, (w.session site.session).last = some (.written report) → site.Fits w

/-- What is true of the session from the start on, as long as nothing but edits interferes. -/
structure Scene (w : World MemoryHost) : Prop where
  outside : MemoryHost.isLocaleFileOf site.context.config.localesDirectory site.context.config.outputPath = false
  ready : (w.session site.session).context? = some site.context
  held : (w.session site.session).dropped = false
  apart : ∀ t, t ≠ site.session → ∀ other, (w.session t).context? = some other →
    other.host = site.context.host → site.Apart other.config.outputPath
  grows : (site.start.host site.context.host).Grows (w.host site.context.host)
  watching : ∀ path, site.start.Listed site.context path →
    site.start.Watched site.session site.context.host path → w.Watched site.session site.context.host path
  accounted : w.Accounted

/-- To edit a file that the session watches, or watched from the start as one of its locale files. -/
def Edits (v : World MemoryHost) (command : Command) : Prop :=
  ∃ path content, command = .edit site.context.host path content ∧
    (v.Watched site.session site.context.host path ∨
      site.start.Listed site.context path ∧ site.start.Watched site.session site.context.host path)

/-- Sessions keep their options and watches, and hosts their files. -/
structure Frame (a b : World MemoryHost) : Prop where
  contexts : ∀ t, (b.session t).context? = (a.session t).context?
  dropped : ∀ t, (b.session t).dropped = (a.session t).dropped
  holds : b.holds = a.holds
  hosts : ∀ h, (a.host h).Grows (b.host h)
  watches : ∀ h, (a.host h).SameWatches (b.host h)
  sets : ∀ owner, b.watches owner = a.watches owner

/-- Nothing that counts for the session's output has changed. -/
structure Unedited (a b : World MemoryHost) : Prop where
  last : (b.session site.session).last = (a.session site.session).last
  rendering : ∀ {rendered},
    site.tools.rendering .types site.context.config (a.host site.context.host) = .ok rendered →
    site.tools.rendering .types site.context.config (b.host site.context.host) = .ok rendered
  output : (b.host site.context.host).file? site.context.config.outputPath =
    (a.host site.context.host).file? site.context.config.outputPath

/-- Edits between two worlds have been noticed by the session: a run in flight will be followed by another,
and if there was none, the output is as current as before. -/
structure Tends (a b : World MemoryHost) : Prop extends Frame a b where
  inFlight : (b.session site.session).inFlight = (a.session site.session).inFlight
  busy : (a.session site.session).inFlight = true → (b.session site.session).requested = true ∨
    site.Unedited a b ∧ (b.session site.session).requested = (a.session site.session).requested
  idle : (a.session site.session).inFlight = false → site.Current a → site.Current b

/-- Whatever was edited before, the session has noticed: another run will follow the one in flight, and if
there was none, the output is current. -/
structure Notices (a b : World MemoryHost) : Prop extends Frame a b where
  inFlight : (b.session site.session).inFlight = (a.session site.session).inFlight
  busy : (a.session site.session).inFlight = true → (b.session site.session).requested = true
  idle : (a.session site.session).inFlight = false → site.Current b

/-- Whoever sets the scene, edits are noticed. -/
def Heeds (a b : World MemoryHost) : Prop := site.Scene a → site.Tends a b

variable {site} {a b c w w' : World MemoryHost}

theorem Frame.refl (w : World MemoryHost) : Frame w w :=
  ⟨fun _ => rfl,fun _ => rfl,rfl,fun _ => .refl _,fun _ => ⟨rfl,rfl,rfl⟩,fun _ => rfl⟩

theorem Frame.trans (first : Frame a b) (next : Frame b c) : Frame a c where
  contexts t := (next.contexts t).trans (first.contexts t)
  dropped t := (next.dropped t).trans (first.dropped t)
  holds := next.holds.trans first.holds
  hosts h := (first.hosts h).trans (next.hosts h)
  watches h := (first.watches h).trans (next.watches h)
  sets owner := (next.sets owner).trans (first.sets owner)

/-- Between setting to work and being done. -/
theorem Frame.leave {t : Nat} (frame : Frame (a.hold t) b) : Frame a (b.leave t) where
  contexts := frame.contexts
  dropped := frame.dropped
  holds := by simp [World.leave,World.hold,frame.holds]
  hosts := frame.hosts
  watches := frame.watches
  sets owner := by simpa using frame.sets owner

/-- A session that was there at first is still there in the end. -/
theorem Frame.there {t : Nat} (frame : Frame a b) (there : a.gone t = false) : b.release t = b :=
  World.release_of_there (by rw [World.gone,frame.dropped,frame.holds]; exact there)

theorem Frame.watched (frame : Frame a b) {s h : Nat} {path : Path} (watched : a.Watched s h path) :
    b.Watched s h path := by
  obtain ⟨watch,member,fits⟩ := watched
  exact ⟨watch,(frame.watches h).watches ▸ member,fits⟩

/-- Whatever is at work, the scene stays. -/
theorem Scene.hold (scene : site.Scene a) (t : Nat) : site.Scene (a.hold t) :=
  {scene with accounted := scene.accounted.frame (fun _ => ⟨rfl,rfl,rfl⟩) fun owner => by cases owner <;> rfl}

theorem Scene.frame (scene : site.Scene a) (frame : Frame a b) : site.Scene b where
  outside := scene.outside
  ready := (frame.contexts _).trans scene.ready
  held := (frame.dropped _).trans scene.held
  apart t other context ready := scene.apart t other context ((frame.contexts t).symm.trans ready)
  grows := scene.grows.trans (frame.hosts _)
  watching path listed watched := frame.watched (scene.watching path listed watched)
  accounted := scene.accounted.frame frame.watches frame.sets

theorem Unedited.refl (w : World MemoryHost) : site.Unedited w w := ⟨rfl,id,rfl⟩

theorem Unedited.trans (first : site.Unedited a b) (next : site.Unedited b c) : site.Unedited a c :=
  ⟨next.last.trans first.last,next.rendering ∘ first.rendering,next.output.trans first.output⟩

theorem Unedited.fits (same : site.Unedited a b) (fits : site.Fits a) : site.Fits b := by
  obtain ⟨entries,source,rendered,output⟩ := fits
  exact ⟨entries,source,same.rendering rendered,same.output.trans output⟩

theorem Unedited.current (same : site.Unedited a b) (current : site.Current a) : site.Current b :=
  fun report written => same.fits (current report (same.last ▸ written))

theorem Frame.tends (frame : Frame a b) (same : site.Unedited a b)
    (inFlight : (b.session site.session).inFlight = (a.session site.session).inFlight)
    (requested : (b.session site.session).requested = (a.session site.session).requested) : site.Tends a b where
  toFrame := frame
  inFlight := inFlight
  busy _ := .inr ⟨same,requested⟩
  idle _ := same.current

theorem Tends.leave {t : Nat} (tends : site.Tends (a.hold t) b) : site.Tends a (b.leave t) where
  toFrame := tends.toFrame.leave
  inFlight := tends.inFlight
  busy busy := (tends.busy busy).imp_right fun ⟨same,requested⟩ => ⟨⟨same.last,same.rendering,same.output⟩,requested⟩
  idle := tends.idle

theorem Tends.refl (w : World MemoryHost) : site.Tends w w := (Frame.refl w).tends (.refl w) rfl rfl

/-- A request outlives whatever happens during a run. -/
theorem Tends.requested (tends : site.Tends a b) (busy : (a.session site.session).inFlight = true)
    (requested : (a.session site.session).requested = true) : (b.session site.session).requested = true :=
  (tends.busy busy).elim id fun same => same.2.trans requested

/-- An output fits until another run is requested. -/
theorem Tends.fits (tends : site.Tends a b) (busy : (a.session site.session).inFlight = true)
    (fits : (a.session site.session).requested = true ∨ site.Fits a) :
    (b.session site.session).requested = true ∨ site.Fits b := by
  rcases fits with requested | fits
  · exact .inl (tends.requested busy requested)
  · exact (tends.busy busy).imp_right fun same => same.1.fits fits

theorem Tends.trans (first : site.Tends a b) (next : site.Tends b c) : site.Tends a c where
  toFrame := first.toFrame.trans next.toFrame
  inFlight := next.inFlight.trans first.inFlight
  busy busy := by
    have still := first.inFlight.trans busy
    rcases first.busy busy with requested | ⟨same,requested⟩
    · exact .inl (next.requested still requested)
    · rcases next.busy still with again | ⟨later,asked⟩
      · exact .inl again
      · exact .inr ⟨same.trans later,asked.trans requested⟩
  idle idle current := next.idle (first.inFlight.trans idle) (first.idle idle current)

theorem Notices.tends (notices : site.Notices a b) : site.Tends a b :=
  ⟨notices.toFrame,notices.inFlight,fun busy => .inl (notices.busy busy),fun idle _ => notices.idle idle⟩

theorem Notices.trans (first : site.Notices a b) (next : site.Tends b c) : site.Notices a c where
  toFrame := first.toFrame.trans next.toFrame
  inFlight := next.inFlight.trans first.inFlight
  busy busy := next.requested (first.inFlight.trans busy) (first.busy busy)
  idle idle := next.idle (first.inFlight.trans idle) (first.idle idle)

theorem Notices.leave {t : Nat} (notices : site.Notices (a.hold t) b) : site.Notices a (b.leave t) :=
  ⟨notices.toFrame.leave,notices.inFlight,notices.busy,notices.idle⟩

/-- It does not matter what happened before. -/
theorem Notices.since (next : site.Notices b c) (frame : Frame a b)
    (inFlight : (b.session site.session).inFlight = (a.session site.session).inFlight) : site.Notices a c where
  toFrame := frame.trans next.toFrame
  inFlight := next.inFlight.trans inFlight
  busy busy := next.busy (inFlight.trans busy)
  idle idle := next.idle (inFlight.trans idle)

theorem Heeds.refl (w : World MemoryHost) : site.Heeds w w := fun _ => .refl w

theorem Heeds.trans (first : site.Heeds a b) (next : site.Heeds b c) : site.Heeds a c := fun scene =>
  (first scene).trans (next (scene.frame (first scene).toFrame))

theorem frame_modify {t : Nat} {f : Session → Session}
    (context : (f (w.session t)).context? = (w.session t).context?)
    (watches : (f (w.session t)).watches = (w.session t).watches)
    (dropped : (f (w.session t)).dropped = (w.session t).dropped) : Frame w (w.modify t f) := by
  refine ⟨fun u => ?_,fun u => ?_,rfl,fun _ => .refl _,fun _ => ⟨rfl,rfl,rfl⟩,World.watches_modify watches⟩ <;>
    rw [World.session_modify] <;> split
  next here => exact here ▸ context
  · rfl
  next here => exact here ▸ dropped
  · rfl

/-- A change of a session that has no part in the matter. -/
theorem tends_modify {t : Nat} {f : Session → Session}
    (context : (f (w.session t)).context? = (w.session t).context?)
    (watches : (f (w.session t)).watches = (w.session t).watches)
    (dropped : (f (w.session t)).dropped = (w.session t).dropped)
    (mine : t = site.session → (f (w.session t)).last = (w.session t).last ∧
      (f (w.session t)).inFlight = (w.session t).inFlight ∧
      (f (w.session t)).requested = (w.session t).requested) : site.Tends w (w.modify t f) := by
  refine (frame_modify context watches dropped).tends ⟨?_,id,rfl⟩ ?_ ?_ <;>
    rw [World.session_modify] <;> split
  next here => exact here ▸ (mine here).1
  · rfl
  next here => exact here ▸ (mine here).2.1
  · rfl
  next here => exact here ▸ (mine here).2.2
  · rfl

theorem frame_record (entry : Entry) (w : World MemoryHost) : Frame w (w.record entry) :=
  ⟨fun _ => rfl,fun _ => rfl,rfl,fun _ => .refl _,fun _ => ⟨rfl,rfl,rfl⟩,fun owner => by cases owner <;> rfl⟩

theorem tends_record (entry : Entry) (w : World MemoryHost) : site.Tends w (w.record entry) :=
  (frame_record entry w).tends ⟨rfl,id,rfl⟩ rfl rfl

theorem frame_write {h : Nat} {path : Path} {content : String} {state : MemoryHost}
    (written : Host.write path content (w.host h) = .ok state) : Frame w (w.setHost h state) := by
  refine ⟨fun _ => rfl,fun _ => rfl,rfl,fun g => ?_,fun g => ?_,fun owner => by cases owner <;> rfl⟩ <;>
    rw [World.host_setHost] <;> split
  next here => subst g; exact MemoryHost.grows_write written
  · exact .refl _
  next here => subst g; exact MemoryHost.write_sameWatches written
  · exact ⟨rfl,rfl,rfl⟩

theorem frame_save (h : Nat) (output : Path) (rendered : Except RunFault (List Locale.Entry × String)) :
    Frame w (Environment.save h output rendered w).2 ∧
      ∀ t, (Environment.save h output rendered w).2.session t = w.session t := by
  unfold Environment.save
  split
  · exact ⟨.refl w,fun _ => rfl⟩
  · split
    · exact ⟨.refl w,fun _ => rfl⟩
    next written => exact ⟨frame_write written,fun _ => rfl⟩

/-- A file that is no locale file is written to the host of the session. -/
theorem rendering_write {path : Path} {content : String} {state : MemoryHost} {rendered}
    (written : Host.write path content (w.host site.context.host) = .ok state)
    (outside : MemoryHost.isLocaleFileOf site.context.config.localesDirectory path = false)
    (done : site.tools.rendering .types site.context.config (w.host site.context.host) = .ok rendered) :
    site.tools.rendering .types site.context.config state = .ok rendered := by
  obtain rfl := MemoryHost.write_eq_ok written
  have inserted := Toolchain.rendering_insert content outside done
  exact Toolchain.rendering_of_list inserted fun files listed => ⟨listed,fun _ _ => rfl⟩

/-- Only what is written over the output or into the locales directory would count. -/
theorem tends_write {h : Nat} {path : Path} {content : String} {state : MemoryHost}
    (written : Host.write path content (w.host h) = .ok state)
    (apart : h = site.context.host → site.Apart path) : site.Tends w (w.setHost h state) := by
  refine (frame_write written).tends ⟨rfl,fun {rendered} done => ?_,?_⟩ rfl rfl <;>
    rw [World.host_setHost] <;> split
  next here => subst h; exact rendering_write written (apart rfl).2 done
  · exact done
  next here =>
    subst h
    rw [MemoryHost.write_eq_ok written]
    exact (MemoryHost.file?_insert ..).trans (if_neg (apart rfl).1)
  · rfl

section Operations

variable {env : Environment MemoryHost} (heard : ∀ {entry w w'}, env.respond entry w = some w' → site.Heeds w w')

include heard

theorem announce_heeds {entry : Entry} (run : env.announce entry w = some w') : site.Heeds w w' :=
  .trans (fun _ => tends_record entry w) (heard run)

theorem log_heeds {logger : Option Nat} {line : String} (run : env.log logger line w = some w') :
    site.Heeds w w' := by
  cases logger with
  | none => cases run; exact .refl w
  | some logger => exact announce_heeds heard run

theorem emit_heeds {s : Nat} {event : Event} (run : env.emit s event w = some w') : site.Heeds w w' := by
  rw [Environment.emit] at run
  split at run
  · exact announce_heeds heard run
  · cases run; exact .refl w

theorem announceCall_heeds {generator : Option Nat} (run : env.announceCall generator w = some w') :
    site.Heeds w w' := by
  cases generator with
  | none => cases run; exact .refl w
  | some s =>
    have counted : site.Tends w
        (w.modify s fun session => {session with generations := session.generations + 1}) :=
      tends_modify rfl rfl rfl fun _ => ⟨rfl,rfl,rfl⟩
    exact .trans (fun _ => counted) (announce_heeds heard run)

theorem render_heeds {generator : Option Nat} {h : Nat} {config : Config} {target : Target} {result}
    (run : env.render generator h config target w = some (result,w')) : site.Heeds w w' := by
  rw [Environment.render] at run
  split at run
  · cases run; exact .refl w
  · simp only [Option.bind_eq_bind,Option.bind_eq_some_iff] at run
    obtain ⟨called,call,run⟩ := run
    have first := announceCall_heeds heard call
    split at run <;> cases run <;> exact first

omit heard in
theorem save_tends {h : Nat} {output : Path} {rendered} (apart : h = site.context.host → site.Apart output) :
    site.Tends w (Environment.save h output rendered w).2 := by
  unfold Environment.save
  split
  · exact .refl w
  · split
    · exact .refl w
    next written => exact tends_write written apart

theorem produce_heeds {generator logger : Option Nat} {h : Nat} {config : Config} {result}
    (apart : h = site.context.host → site.Apart config.outputPath)
    (run : env.produce generator h logger config w = some (result,w')) : site.Heeds w w' := by
  simp only [Environment.produce,Option.bind_eq_bind,Option.bind_eq_some_iff] at run
  obtain ⟨logged,log,⟨rendered,called⟩,render,run⟩ := run
  have before : site.Heeds w called := (log_heeds heard log).trans (render_heeds heard render)
  have saved : site.Heeds w (Environment.save h config.outputPath rendered called).2 :=
    before.trans fun _ => save_tends apart
  split at run
  next report after save =>
    rw [save] at saved
    simp only [Option.bind_eq_some_iff] at run
    obtain ⟨last,told,run⟩ := run
    cases run
    exact (saved.trans (log_heeds heard told)).trans fun _ => tends_record _ _
  next fault after save =>
    rw [save] at saved
    simp only [Option.bind_eq_some_iff] at run
    obtain ⟨last,told,run⟩ := run
    cases run
    exact saved.trans (log_heeds heard told)

section Others

variable {t : Nat} (other : t ≠ site.session)

include other

theorem runOnce_heeds (run : env.runOnce t w = some w') : site.Heeds w w' := by
  intro scene
  rw [Environment.runOnce] at run
  split at run
  · cases run; exact .refl w
  next context found =>
    simp only [Option.bind_eq_bind,Option.bind_eq_some_iff] at run
    obtain ⟨⟨result,made⟩,produce,run⟩ := run
    have started : site.Tends w (w.start t context.config) :=
      (tends_modify rfl rfl rfl fun here => absurd here other).trans (tends_record _ _)
    have done : site.Heeds w made := .trans (fun _ => started)
      (produce_heeds heard (scene.apart t other context found) produce)
    split at run
    all_goals
      simp only [Option.bind_eq_some_iff] at run
      obtain ⟨told,emit,run⟩ := run
      cases run
      have ended := (done.trans (emit_heeds heard emit)) scene
      exact ended.trans ((tends_modify rfl rfl rfl fun here => absurd here other).trans (tends_record _ _))

theorem drain_heeds (run : env.drain t w = some w') : site.Heeds w w' := by
  refine Environment.drain.partial_correctness env t (fun w w' => site.Heeds w w') ?_ w w' run
  intro drain ih w w' run
  split at run
  · simp only [Option.bind_eq_bind,Option.bind_eq_some_iff] at run
    obtain ⟨next,once,run⟩ := run
    have heeded : site.Tends w (w.heed t) := tends_modify rfl rfl rfl fun here => absurd here other
    exact (Heeds.trans (fun _ => heeded) (runOnce_heeds heard other once)).trans (ih _ _ run)
  · cases run; exact .refl w

theorem attempt_heeds (run : env.attempt t w = some w') : site.Heeds w w' := by
  refine Environment.attempt.partial_correctness env t (fun w w' => site.Heeds w w') ?_ w w' run
  intro attempt ih w w' run
  split at run
  · cases run; exact .refl w
  · simp only [Option.bind_eq_bind,Option.bind_eq_some_iff] at run
    obtain ⟨drained,drain,run⟩ := run
    have locked : site.Tends w (w.lock t) := tends_modify rfl rfl rfl fun here => absurd here other
    have unlocked : site.Tends drained (drained.unlock t) := tends_modify rfl rfl rfl fun here => absurd here other
    have done : site.Heeds w (drained.unlock t) :=
      (Heeds.trans (fun _ => locked) (drain_heeds heard other drain)).trans fun _ => unlocked
    split at run
    · exact done.trans (ih _ _ run)
    · cases run; exact done

theorem regenerate_heeds (run : env.regenerate t w = some w') : site.Heeds w w' := by
  have asked : site.Tends w (w.request t) :=
    (tends_modify rfl rfl rfl fun here => absurd here other).trans (tends_record _ _)
  exact .trans (fun _ => asked) (attempt_heeds heard other run)

end Others

section Own

variable (tools : env.toolchain = site.tools)

include tools

/-- Either what was rendered is still what is to be rendered, or another run will follow. -/
theorem render_fits {generator : Option Nat} {rendered : Except RunFault (List Locale.Entry × String)}
    (scene : site.Scene w) (busy : (w.session site.session).inFlight = true)
    (run : env.render generator site.context.host site.context.config .types w = some (rendered,w')) :
    ∀ made, rendered = .ok made → (w'.session site.session).requested = true ∨
      site.tools.rendering .types site.context.config (w'.host site.context.host) = .ok made := by
  rintro made rfl
  rw [Environment.render,tools] at run
  split at run
  · cases run
  next entries loaded =>
    simp only [Option.bind_eq_bind,Option.bind_eq_some_iff] at run
    obtain ⟨called,call,run⟩ := run
    have first := announceCall_heeds heard call scene
    split at run
    · cases run
    next artifact generated =>
      cases run
      have before : site.tools.rendering .types site.context.config (w.host site.context.host) =
          .ok (entries,artifact.primary) := by
        simp only [Toolchain.rendering,loaded,generated]
      exact (first.busy busy).imp_right fun same => same.1.rendering before

omit heard tools in
/-- What the session itself writes fits what is to be rendered. -/
theorem save_fits {rendered : Except RunFault (List Locale.Entry × String)} {report : Report}
    (scene : site.Scene w) (run : Environment.save site.context.host site.context.config.outputPath rendered w =
      (.ok report,w')) (made : ∀ made, rendered = .ok made →
      site.tools.rendering .types site.context.config (w.host site.context.host) = .ok made) : site.Fits w' := by
  unfold Environment.save at run
  split at run
  · cases run
  next entries source =>
    split at run
    · cases run
    next state written =>
      cases run
      have host : (w.setHost site.context.host state).host site.context.host = state := by simp
      refine ⟨entries,source,?_,?_⟩ <;> rw [host]
      · exact rendering_write written scene.outside (made _ rfl)
      · rw [MemoryHost.write_eq_ok written]
        exact (MemoryHost.file?_insert ..).trans (if_pos (Path.same_refl _))

theorem produce_fits {generator logger : Option Nat} {result : Except RunFault Report}
    (scene : site.Scene w) (busy : (w.session site.session).inFlight = true)
    (run : env.produce generator site.context.host logger site.context.config w = some (result,w')) :
    Frame w w' ∧ (w'.session site.session).inFlight = true ∧
      ∀ report, result = .ok report → (w'.session site.session).requested = true ∨ site.Fits w' := by
  simp only [Environment.produce,Option.bind_eq_bind,Option.bind_eq_some_iff] at run
  obtain ⟨logged,log,⟨rendered,called⟩,render,run⟩ := run
  have first := log_heeds heard log scene
  have next := render_heeds heard render (scene.frame first.toFrame)
  have before := first.trans next
  have flying := before.inFlight.trans busy
  have made := render_fits heard tools (scene.frame first.toFrame) (first.inFlight.trans busy) render
  obtain ⟨frame,sessions⟩ : Frame called _ ∧ ∀ t, _ = called.session t :=
    frame_save site.context.host site.context.config.outputPath rendered
  have reached := before.toFrame.trans frame
  have aloft := (congrArg Session.inFlight (sessions site.session)).trans flying
  split at run
  next report after save =>
    rw [save] at reached aloft sessions
    simp only [Option.bind_eq_some_iff] at run
    obtain ⟨last,told,run⟩ := run
    cases run
    have noted : site.Tends last (last.record (.noted (.regenerated report))) := tends_record _ _
    have logged := (log_heeds heard told (scene.frame reached)).trans noted
    have fits : (after.session site.session).requested = true ∨ site.Fits after := by
      by_cases requested : (called.session site.session).requested = true
      · exact .inl (by rw [sessions]; exact requested)
      · exact .inr (save_fits (scene.frame before.toFrame) save fun rendering rendered =>
          (made rendering rendered).resolve_left requested)
    exact ⟨reached.trans logged.toFrame,logged.inFlight.trans aloft,fun _ _ => logged.fits aloft fits⟩
  next fault after save =>
    rw [save] at reached aloft
    simp only [Option.bind_eq_some_iff] at run
    obtain ⟨last,told,run⟩ := run
    cases run
    have logged := log_heeds heard told (scene.frame reached)
    exact ⟨reached.trans logged.toFrame,logged.inFlight.trans aloft,fun _ written => by cases written⟩

/-- After a run of the session another one is requested, or its output fits. -/
theorem runOnce_current (scene : site.Scene w) (busy : (w.session site.session).inFlight = true)
    (run : env.runOnce site.session w = some w') :
    Frame w w' ∧ (w'.session site.session).inFlight = true ∧
      ((w'.session site.session).requested = true ∨ site.Current w') := by
  simp only [Environment.runOnce,scene.ready,Option.bind_eq_bind,Option.bind_eq_some_iff] at run
  obtain ⟨⟨result,made⟩,produce,run⟩ := run
  have started : site.Tends w (w.start site.session site.context.config) :=
    (tends_modify rfl rfl rfl fun _ => ⟨rfl,rfl,rfl⟩).trans (tends_record _ _)
  obtain ⟨frame,flying,fits⟩ :=
    produce_fits heard tools (scene.frame started.toFrame) (started.inFlight.trans busy) produce
  have before := started.toFrame.trans frame
  have finished (v : World MemoryHost) (status : Status) : Frame v (v.finish site.session status) :=
    (frame_modify rfl rfl rfl).trans (frame_record _ _)
  split at run
  all_goals
    simp only [Option.bind_eq_some_iff] at run
    obtain ⟨told,emit,run⟩ := run
    cases run
    have emitted := emit_heeds heard emit (scene.frame before)
    have aloft := emitted.inFlight.trans flying
    refine ⟨(before.trans emitted.toFrame).trans (finished _ _),by simpa [World.finish] using aloft,?_⟩
  next report same =>
    refine (emitted.fits flying (fits report same)).imp (fun requested => ?_) fun fits _ _ => fits
    simpa [World.finish] using requested
  next fault =>
    refine .inr fun report written => ?_
    simp [World.finish] at written

theorem drain_current (scene : site.Scene w) (busy : (w.session site.session).inFlight = true)
    (current : (w.session site.session).requested = true ∨ site.Current w)
    (run : env.drain site.session w = some w') :
    Frame w w' ∧ (w'.session site.session).requested = false ∧ site.Current w' := by
  refine Environment.drain.partial_correctness env site.session (fun w w' => site.Scene w →
    (w.session site.session).inFlight = true → (w.session site.session).requested = true ∨ site.Current w →
    Frame w w' ∧ (w'.session site.session).requested = false ∧ site.Current w') ?_ w w' run scene busy current
  -- what carries the loop: either another run is requested, or what was written last still fits
  intro drain ih w w' run scene busy current
  split at run
  · simp only [Option.bind_eq_bind,Option.bind_eq_some_iff] at run
    obtain ⟨next,once,run⟩ := run
    have heeded : Frame w (w.heed site.session) := frame_modify rfl rfl rfl
    obtain ⟨frame,flying,settled⟩ :=
      runOnce_current heard tools (scene.frame heeded) (by simpa [World.heed] using busy) once
    have before := heeded.trans frame
    obtain ⟨rest,quiet,made⟩ := ih _ _ run (scene.frame before) flying settled
    exact ⟨before.trans rest,quiet,made⟩
  next quiet =>
    cases run
    exact ⟨.refl w,by simpa using quiet,current.resolve_left quiet⟩

/-- When a regeneration that found no run in flight comes back, the output is current. -/
theorem regenerate_current (scene : site.Scene w) (idle : (w.session site.session).inFlight = false)
    (run : env.regenerate site.session w = some w') :
    Frame w w' ∧ (w'.session site.session).inFlight = false ∧ site.Current w' := by
  have asked : Frame w ((w.request site.session).lock site.session) :=
    (frame_modify rfl rfl rfl).trans ((frame_record _ _).trans (frame_modify rfl rfl rfl))
  rw [Environment.regenerate,Environment.attempt,if_neg (by simp [World.request,idle])] at run
  simp only [Option.bind_eq_bind,Option.bind_eq_some_iff] at run
  obtain ⟨drained,drain,run⟩ := run
  obtain ⟨frame,quiet,current⟩ := drain_current heard tools (scene.frame asked) (by simp [World.lock])
    (.inl (by simp [World.lock,World.request])) drain
  have settled : ((drained.unlock site.session).session site.session).requested = false := by
    simpa [World.unlock] using quiet
  rw [settled] at run
  cases run
  have unlocked : Frame drained (drained.unlock site.session) := frame_modify rfl rfl rfl
  refine ⟨(asked.trans frame).trans unlocked,by simp [World.unlock],fun report written => ?_⟩
  exact current report (by simpa [World.unlock] using written)

/-- The session hears of a change. -/
theorem fileChanged_notices {path : Path} (scene : site.Scene w)
    (run : env.fileChanged site.session path w = some w') : site.Notices w w' := by
  have there := World.gone_of_held scene.held
  obtain ⟨told,made,emit,regenerate,rfl⟩ := (env.fileChanged_of_there there).mp run
  have noted : site.Tends (w.hold site.session) _ := tends_record (.noted (.fileChanged path)) _
  have before := noted.trans (emit_heeds heard emit ((scene.hold site.session).frame noted.toFrame))
  have scene := (scene.hold site.session).frame before.toFrame
  suffices notices : site.Notices told made by
    have whole := (notices.since before.toFrame before.inFlight).leave
    rwa [whole.there there]
  cases flying : (told.session site.session).inFlight with
  | true =>
    rw [Environment.regenerate_of_inFlight env flying] at regenerate
    cases regenerate
    have asked : Frame told (told.request site.session) :=
      (frame_modify rfl rfl rfl).trans (frame_record _ _)
    refine ⟨asked,by simp [World.request],fun _ => by simp [World.request],fun idle => ?_⟩
    rw [flying] at idle
    cases idle
  | false =>
    obtain ⟨frame,idle,current⟩ := regenerate_current heard tools scene flying regenerate
    refine ⟨frame,idle.trans flying.symm,fun busy => ?_,fun _ => current⟩
    rw [flying] at busy
    cases busy

theorem fire_heeds {watch : Watch} (run : env.fire watch w = some w') : site.Heeds w w' := by
  intro scene
  rw [Environment.fire] at run
  split at run
  next t subscribed =>
    by_cases own : t = site.session
    · subst own
      exact (fileChanged_notices heard tools scene run).tends
    · cases gone : w.gone t with
      | true =>
        rw [env.fileChanged_of_gone gone] at run
        cases run
        exact .refl w
      | false =>
        obtain ⟨told,made,emit,regenerate,rfl⟩ := (env.fileChanged_of_there gone).mp run
        have noted : site.Heeds (w.hold t) ((w.hold t).record (.noted (.fileChanged watch.path))) :=
          fun _ => tends_record _ _
        have whole := ((noted.trans (emit_heeds heard emit)).trans (regenerate_heeds heard own regenerate)
          (scene.hold t)).leave
        rwa [whole.there gone]
  · cases run; exact tends_record _ _

theorem fireAll_heeds {watches : List Watch} (run : env.fireAll watches w = some w') : site.Heeds w w' := by
  induction watches generalizing w with
  | nil => cases run; exact .refl _
  | cons watch rest ih =>
    simp only [Environment.fireAll,Option.bind_eq_bind,Option.bind_eq_some_iff] at run
    obtain ⟨fired,fire,run⟩ := run
    exact (fire_heeds heard tools fire).trans (ih run)

theorem fireAll_notices {watches : List Watch} (scene : site.Scene w)
    (own : ∃ watch ∈ watches, watch.subscriber = .session site.session)
    (run : env.fireAll watches w = some w') : site.Notices w w' := by
  induction watches generalizing w with
  | nil => obtain ⟨_,member,_⟩ := own; cases member
  | cons watch rest ih =>
    simp only [Environment.fireAll,Option.bind_eq_bind,Option.bind_eq_some_iff] at run
    obtain ⟨fired,fire,run⟩ := run
    -- the first watch of the session's own settles it; those before may set off what they like
    by_cases mine : watch.subscriber = .session site.session
    · rw [Environment.fire,mine] at fire
      have noticed := fileChanged_notices heard tools scene fire
      exact noticed.trans (fireAll_heeds heard tools run (scene.frame noticed.toFrame))
    · have passed := fire_heeds heard tools fire scene
      have later : ∃ watch ∈ rest, watch.subscriber = .session site.session := by
        obtain ⟨other,member,subscribed⟩ := own
        rcases List.mem_cons.mp member with rfl | member
        · exact absurd subscribed mine
        · exact ⟨other,member,subscribed⟩
      exact (ih (scene.frame passed.toFrame) later run).since passed.toFrame passed.inFlight

omit heard tools in
/-- The file is written and the watches are tidied up, before anybody hears of it. -/
theorem frame_edit (h : Nat) (path : Path) (content : String) (w : World MemoryHost) : Frame w
    ((w.setHost h ((w.host h).insert path content)).setHost h ((w.host h).insert path content).prune) := by
  refine ⟨fun _ => rfl,fun _ => rfl,rfl,fun g => ?_,fun g => ?_,fun owner => by cases owner <;> rfl⟩ <;>
    rw [World.host_setHost,World.host_setHost] <;> split
  next here => subst here; exact (MemoryHost.grows_insert _ path content).trans (.of_store (MemoryHost.store_prune _))
  · exact .refl _
  next here =>
    subst here
    exact (MemoryHost.perform_sameWatches _ (.insert path content)).trans (MemoryHost.prune_sameWatches _)
  · exact ⟨rfl,rfl,rfl⟩

/-- An edit of a watched file is noticed. -/
theorem edit_notices {path : Path} {content : String} {reply : Reply} (scene : site.Scene w)
    (watched : w.Watched site.session site.context.host path)
    (run : env.perform (.edit site.context.host path content) w = some (reply,w')) : site.Notices w w' := by
  simp only [Environment.perform,Environment.notify,Option.bind_eq_bind,Option.bind_eq_some_iff] at run
  obtain ⟨⟨count,told⟩,⟨after,fired,notified⟩,done⟩ := run
  cases notified
  cases done
  have frame : Frame w _ := frame_edit site.context.host path content w
  have own := frame.watched watched
  rw [World.host_setHost,if_pos rfl] at fired
  obtain ⟨watch,member,same,subscribed⟩ := own
  rw [World.host_setHost,if_pos rfl] at member
  have heard := fireAll_notices heard tools (scene.frame frame)
    ⟨watch,List.mem_filter.mpr ⟨member,same⟩,subscribed⟩ fired
  exact heard.since frame rfl

/-- However many watched files a script edits. -/
theorem follow_tends {script : Script} {v : World MemoryHost} (scene : site.Scene v) (tends : site.Tends v w)
    (edits : script.Issues (site.Edits v)) (run : env.follow script w = some w') : site.Tends v w' := by
  induction script generalizing w with
  | done => cases run; exact tends
  | issue command next ih =>
    simp only [Environment.follow,Option.bind_eq_bind,Option.bind_eq_some_iff] at run
    obtain ⟨⟨reply,edited⟩,perform,run⟩ := run
    obtain ⟨path,content,rfl,watched⟩ := edits.1
    -- edits neither open nor close a watch, so what was watched when the script was set off still is
    have still := tends.toFrame.watched (watched.elim id fun known => scene.watching path known.1 known.2)
    have noticed := (edit_notices heard tools (scene.frame tends.toFrame) still perform).tends
    exact ih reply ((tends.trans noticed).trans (tends_record _ _)) (edits.2 reply) run

end Own

end Operations

/-- However deep edits set off edits. -/
theorem scripted_heeds {behaviour : Behaviour} (edits : ∀ entry v, (behaviour entry v).Issues (site.Edits v))
    (depth : Nat) {entry : Entry}
    (run : (Environment.scripted site.tools behaviour depth).respond entry w = some w') : site.Heeds w w' := by
  intro scene
  induction depth generalizing entry w w' with
  | zero =>
    simp only [Environment.scripted] at run
    split at run
    · cases run; exact .refl w
    · contradiction
  | succ depth ih =>
    exact follow_tends (fun run scene => ih run scene) (by cases depth <;> rfl) scene (.refl w) (edits entry w) run

end Site
end Phrasebook
