import Phrasebook.Proofs.Session.Ruling

/-! What a session works with. Options are in force that passed on the host which the session had then. It still
has that host, unless it was created again with options that did not pass: then it has the host that it was handed
last, together with options that were never checked on it (`config_tenured`). -/
namespace Phrasebook

/-- Somebody holds the session, and it is not disposed of. -/
def World.Serves (s : Nat) (w : World MemoryHost) : Prop :=
  (w.session s).dropped = false ∧ (w.session s).phase ≠ .disposed

/-- What a session was handed, and the options in force. -/
def Session.belongings (session : Session) : Option Nat × Option Nat × Option Nat × Option Config :=
  (session.host,session.logger,session.hook,session.config)

section Keeping

variable {s t : Nat} {w w' : World MemoryHost}

theorem belongings_modify {f : Session → Session}
    (keeps : t = s → ∀ session, (f session).belongings = session.belongings) :
    ((w.modify t f).session s).belongings = (w.session s).belongings := by
  rw [World.session_modify]
  split
  next here => exact keeps here _
  · rfl

theorem belongings_watched (session : ∃ handles, w'.session s = {w.session s with watches := handles}) :
    (w'.session s).belongings = (w.session s).belongings := by
  obtain ⟨handles,same⟩ := session
  rw [same]
  rfl

/-- Unless a session is given options or they are taken away, it keeps what it has. -/
theorem belongings_lasting (s : Nat) : Lasting (fun command => ¬command.Rules s) fun a b =>
    (b.session s).belongings = (a.session s).belongings where
  refl _ := rfl
  trans first next := next.trans first
  step := by
    intro a b c before step
    rw [← before]
    cases step with
    | record | host | wrap | hold | leave => rfl
    | renewSink t => exact belongings_modify (w := {b with sinks := b.sinks + 1}) fun _ _ => rfl
    | generate | lock | unlock | heed | install | drop => exact belongings_modify fun _ _ => rfl
    | request | start | finish | activate => exact belongings_modify fun _ _ => rfl
    | introduce t platform hook logger options creates => exact belongings_modify fun here => absurd here creates
    | create t platform hook logger options config creates => exact belongings_modify fun here => absurd here creates
    | configure t options config configures => exact belongings_modify fun here => absurd here configures
    | rewatch | rewatchRecorder => exact belongings_watched (b.session_of_rewatch _ _ _ s)
    | unwatchRecorder => exact belongings_watched (b.session_of_unwatch _ s)
    | release t => exact belongings_watched (b.session_of_release t s)
    | dispose t disposes =>
      have other : t ≠ s := disposes.elim id id
      refine (belongings_watched ((b.retire t).session_of_unwatch _ s)).trans ?_
      exact belongings_modify fun here => absurd here other

end Keeping

section Turns

variable {env : Environment MemoryHost} {s : Nat} {w w' : World MemoryHost}
  (heard : ∀ {entry w w'}, env.respond entry w = some w' → (w'.session s).belongings = (w.session s).belongings)

include heard

theorem install_belongings (run : env.install s w = some w') :
    (w'.session s).belongings = (w.session s).belongings := by
  have lasting := belongings_lasting s
  simp only [Environment.install] at run
  split at run
  · split at run
    · cases run; rfl
    · split at run
      all_goals
        simp only [Option.bind_eq_bind,Option.bind_eq_some_iff] at run
        obtain ⟨told,log,emit⟩ := run
        have logged := lasting.log heard log
        have emitted := lasting.emit heard emit
      · have active : ((told.activate s).session s).belongings = (told.session s).belongings :=
          belongings_modify fun _ _ => rfl
        exact emitted.trans (active.trans (logged.trans (belongings_modify fun _ _ => rfl)))
      · exact emitted.trans (logged.trans (belongings_modify fun _ _ => rfl))
  · cases run; rfl

/-- The host is handed over whether or not the options pass, and the options are adopted only if they do. -/
theorem create_belongings {platform : Option Nat} {hook logger : Nat} {options : Json}
    (live : (w.session s).phase ≠ .disposed) (run : env.create s platform hook logger options w = some w') :
    (w'.session s).belongings = (platform,some logger,some hook,
      (Config.check options (platform.map w.host)).toOption.or (w.session s).config) := by
  have lasting := belongings_lasting s
  let known := w.modify s fun session => {session with host := platform,logger := some logger,hook := some hook}
  have handed : (known.session s).belongings = (platform,some logger,some hook,(w.session s).config) := by
    simp [known,Session.belongings]
  simp only [Environment.create,live,if_false] at run
  split at run
  all_goals simp only [Option.bind_eq_bind,Option.bind_eq_some_iff] at run
  next rejection rejected =>
    obtain ⟨told,log,emit⟩ := run
    rw [rejected]
    exact (lasting.trans (lasting.log heard log) (lasting.emit heard emit)).trans handed
  next config accepted =>
    obtain ⟨told,log,announced,emit,install⟩ := run
    have logged : (told.session s).belongings = (platform,some logger,some hook,(w.session s).config) :=
      (lasting.log heard log).trans handed
    simp only [Session.belongings,Prod.mk.injEq] at logged
    obtain ⟨host,logger',hook',-⟩ := logged
    have adopted : ((told.adopt s config .validated).session s).belongings =
        (platform,some logger,some hook,some config) := by
      simp [World.adopt,Session.belongings,host,logger',hook']
    rw [accepted]
    exact (install_belongings heard install).trans ((lasting.emit heard emit).trans adopted)

/-- The host stays what it is, and the options are adopted only if they pass on it. -/
theorem configure_belongings {options : Json} {adopted : Bool}
    (run : env.configure s options w = some (adopted,w')) :
    ∃ u, env.log (w.session s).logger "config changed" w = some u ∧
      (adopted = false ∧ (w'.session s).belongings = (w.session s).belongings ∨
        adopted = true ∧ ∃ config, Config.check options ((w.session s).host.map u.host) = .ok config ∧
          (w'.session s).belongings =
            ((w.session s).host,(w.session s).logger,(w.session s).hook,some config)) := by
  have lasting := belongings_lasting s
  simp only [Environment.configure,Option.bind_eq_bind,Option.bind_eq_some_iff] at run
  obtain ⟨u,log,run⟩ := run
  have logged := lasting.log heard log
  refine ⟨u,log,?_⟩
  split at run
  · simp only [Option.bind_eq_some_iff] at run
    obtain ⟨last,ignored,run⟩ := run
    cases run
    exact .inl ⟨rfl,lasting.trans logged (lasting.log heard ignored)⟩
  · split at run
    all_goals simp only [Option.bind_eq_some_iff] at run
    · obtain ⟨rejected,log,last,emit,run⟩ := run
      cases run
      exact .inl ⟨rfl,lasting.trans logged (lasting.trans (lasting.log heard log) (lasting.emit heard emit))⟩
    next config accepted =>
      obtain ⟨announced,emit,hooked,install,last,regenerate,run⟩ := run
      cases run
      have same := logged
      simp only [Session.belongings,Prod.mk.injEq] at same
      obtain ⟨host,logger,hook,-⟩ := same
      have adopted : ((u.adopt s config
          (if (u.session s).phase = .uninitialized then .validated else (u.session s).phase)).session s).belongings =
          ((w.session s).host,(w.session s).logger,(w.session s).hook,some config) := by
        simp [World.adopt,Session.belongings,host,logger,hook]
      refine .inr ⟨rfl,config,host ▸ accepted,?_⟩
      exact (lasting.regenerate heard regenerate).trans
        ((install_belongings heard install).trans ((lasting.emit heard emit).trans adopted))

end Turns

/-- How the options in force came to a session: they passed on the host `h`, which it had then. Since then it was
created again with options that did not pass, and so was handed these hosts, the latest first. -/
inductive Tenure (s h : Nat) (config : Config) : List (Option Nat) → World MemoryHost → Prop where
  | created {w v : World MemoryHost} {hook logger : Nat} {options : Json} (before : Course s w)
      (serves : w.Serves s) (accepted : Config.check options (some (w.host h)) = .ok config)
      (turn : Turn s (.create s (some h) hook logger options) w v) : Tenure s h config [] v
  | configured {w u v : World MemoryHost} {tools : Toolchain} {behaviour : Behaviour} {depth : Nat} {options : Json}
      (before : Course s w) (placed : (w.session s).host = some h)
      (issues : ∀ entry w, (behaviour entry w).Issues fun command => ¬command.Rules s)
      (told : (Environment.scripted tools behaviour depth).log (w.session s).logger "config changed" w = some u)
      (accepted : Config.check options (some (u.host h)) = .ok config)
      (run : (Environment.scripted tools behaviour depth).perform (.configure s options) w = some (.flag true,v)) :
      Tenure s h config [] v
  | handed {since : List (Option Nat)} {w v : World MemoryHost} {platform : Option Nat} {hook logger : Nat}
      {options : Json} {rejection : Rejection} (before : Tenure s h config since w)
      (rejected : Config.check options (platform.map w.host) = .error rejection)
      (turn : Turn s (.create s platform hook logger options) w v) : Tenure s h config (platform :: since) v
  | declined {since : List (Option Nat)} {w v : World MemoryHost} {tools : Toolchain} {behaviour : Behaviour}
      {depth : Nat} {options : Json} (before : Tenure s h config since w)
      (issues : ∀ entry w, (behaviour entry w).Issues fun command => ¬command.Rules s)
      (run : (Environment.scripted tools behaviour depth).perform (.configure s options) w = some (.flag false,v)) :
      Tenure s h config since v
  | unruled {since : List (Option Nat)} {command : Command} {w v : World MemoryHost}
      (before : Tenure s h config since w) (unruly : ¬command.Rules s) (turn : Turn s command w v) :
      Tenure s h config since v

section Courses

variable {s h : Nat} {config : Config} {since : List (Option Nat)} {w v : World MemoryHost}

theorem Turn.unruled {command : Command} (unruly : ¬command.Rules s) (turn : Turn s command w v) :
    (v.session s).belongings = (w.session s).belongings := by
  obtain ⟨tools,behaviour,depth,reply,issues,run⟩ := turn
  exact perform_lasting (belongings_lasting s) (Environment.scripted_issues issues tools depth) unruly run

/-- If it takes any notice, the session is handed the host whether or not the options pass. -/
theorem Turn.created {platform : Option Nat} {hook logger : Nat} {options : Json}
    (turn : Turn s (.create s platform hook logger options) w v) :
    ¬w.Serves s ∧ (v.session s).belongings = (w.session s).belongings ∨
    w.Serves s ∧ (v.session s).belongings = (platform,some logger,some hook,
      (Config.check options (platform.map w.host)).toOption.or (w.session s).config) := by
  obtain ⟨tools,behaviour,depth,reply,issues,run⟩ := turn
  have heard {entry : Entry} {w w' : World MemoryHost}
      (run : (Environment.scripted tools behaviour depth).respond entry w = some w') :
      (w'.session s).belongings = (w.session s).belongings :=
    Environment.scripted_issues issues tools depth (belongings_lasting s) run
  rw [Environment.perform] at run
  rcases onSession_cases run with ⟨left,rfl⟩ | ⟨held,run⟩
  · exact .inl ⟨fun serves => by simp [serves.1] at left,rfl⟩
  simp only [Option.bind_eq_bind,Option.bind_eq_some_iff] at run
  obtain ⟨made,create,same⟩ := run
  cases same
  by_cases ended : (w.session s).phase = .disposed
  · rw [Environment.create,if_pos ended] at create
    exact .inl ⟨fun serves => serves.2 ended,(belongings_lasting s).log heard create⟩
  · exact .inr ⟨⟨held,ended⟩,create_belongings heard ended create⟩

theorem Turn.configured {tools : Toolchain} {behaviour : Behaviour} {depth : Nat} {options : Json} {reply : Reply}
    (issues : ∀ entry w, (behaviour entry w).Issues fun command => ¬command.Rules s)
    (run : (Environment.scripted tools behaviour depth).perform (.configure s options) w = some (reply,v)) :
    (w.session s).dropped = true ∧ reply = .done ∧ v = w ∨
    ∃ u, (Environment.scripted tools behaviour depth).log (w.session s).logger "config changed" w = some u ∧
      (reply = .flag false ∧ (v.session s).belongings = (w.session s).belongings ∨
        reply = .flag true ∧ ∃ config, Config.check options ((w.session s).host.map u.host) = .ok config ∧
          (v.session s).belongings =
            ((w.session s).host,(w.session s).logger,(w.session s).hook,some config)) := by
  rw [Environment.perform,Environment.onSession] at run
  split at run
  next left => cases run; exact .inl ⟨left,rfl,rfl⟩
  · simp only [Option.bind_eq_bind,Option.bind_eq_some_iff] at run
    obtain ⟨⟨adopted,made⟩,configure,same⟩ := run
    cases same
    obtain ⟨u,told,outcome⟩ := configure_belongings
      (Environment.scripted_issues issues tools depth (belongings_lasting s)) configure
    refine .inr ⟨u,told,?_⟩
    rcases outcome with ⟨rfl,same⟩ | ⟨rfl,outcome⟩
    · exact .inl ⟨rfl,same⟩
    · exact .inr ⟨rfl,outcome⟩

theorem Turn.ended {command : Command} (standing : w.Standing s) (ends : command.Ends s)
    (turn : Turn s command w v) : ¬v.Serves s := by
  rintro ⟨held,live⟩
  obtain ⟨tools,behaviour,depth,reply,issues,run⟩ := turn
  have heard {entry : Entry} {w w' : World MemoryHost}
      (run : (Environment.scripted tools behaviour depth).respond entry w = some w') : Unruled s w w' :=
    Environment.scripted_issues issues tools depth (unruled_lasting s) run
  rcases ended_cases ends run with ⟨left,rfl⟩ | ⟨u,dispose,rfl | rfl⟩
  · simp [held] at left
  · exact live (dispose_keeps heard standing dispose).2
  · obtain ⟨handles,left⟩ := (u.modify s fun session => {session with dropped := true}).session_of_release s s
    rw [left] at held
    simp at held

/-- A session with options serves. -/
theorem World.Standing.serves (standing : w.Standing s) (adopted : (w.session s).config = some config) :
    w.Serves s := by
  have live : (w.session s).phase ≠ .disposed := fun ended => by simp [standing.disposed ended] at adopted
  refine ⟨?_,live⟩
  cases held : (w.session s).dropped with
  | false => rfl
  | true => exact absurd (standing.dropped held) live

theorem Tenure.course (tenure : Tenure s h config since w) : Course s w := by
  induction tenure with
  | created before serves accepted turn => exact .turn before turn
  | configured before placed issues told accepted run => exact .turn before ⟨_,_,_,_,issues,run⟩
  | handed before rejected turn ih => exact .turn ih turn
  | declined before issues run ih => exact .turn ih ⟨_,_,_,_,issues,run⟩
  | unruled before unruly turn ih => exact .turn ih turn

/-- The options are in force, and the host is the one handed over last. -/
theorem Tenure.belongings (tenure : Tenure s h config since w) :
    (w.session s).config = some config ∧ (w.session s).host = since.head?.getD (some h) := by
  have shown {host logger hook : Option Nat} {adopted : Option Config} {w : World MemoryHost}
      (same : (w.session s).belongings = (host,logger,hook,adopted)) :
      (w.session s).config = adopted ∧ (w.session s).host = host := by
    simp only [Session.belongings,Prod.mk.injEq] at same
    exact ⟨same.2.2.2,same.1⟩
  induction tenure with
  | created before serves accepted turn =>
    rcases turn.created with ⟨idle,-⟩ | ⟨-,made⟩
    · exact absurd serves idle
    · simp only [Option.map_some,accepted] at made
      exact shown made
  | configured before placed issues told accepted run =>
    rcases Turn.configured issues run with ⟨-,none,-⟩ | ⟨u,told',⟨none,-⟩ | ⟨-,config',accepted',made⟩⟩
    · cases none
    · cases none
    · cases told.symm.trans told'
      rw [placed,Option.map_some,accepted] at accepted'
      cases accepted'
      rw [placed] at made
      exact shown made
  | handed before rejected turn ih =>
    rcases turn.created with ⟨idle,-⟩ | ⟨-,made⟩
    · exact absurd (before.course.standing.serves ih.1) idle
    · simp only [rejected,ih.1] at made
      exact shown made
  | declined before issues run ih =>
    rcases Turn.configured issues run with ⟨-,none,-⟩ | ⟨u,told,⟨-,same⟩ | ⟨none,-⟩⟩
    · cases none
    · obtain ⟨adopted,host⟩ := shown same
      exact ⟨adopted.trans ih.1,host.trans ih.2⟩
    · cases none
  | unruled before unruly turn ih =>
    obtain ⟨adopted,host⟩ := shown (turn.unruled unruly)
    exact ⟨adopted.trans ih.1,host.trans ih.2⟩

/-- Options in force after the session was created passed just now, or were in force before. -/
theorem Course.tenure_created {platform : Option Nat} {hook logger : Nat} {options : Json} (before : Course s w)
    (turn : Turn s (.create s platform hook logger options) w v) (adopted : (v.session s).config = some config)
    (earlier : (w.session s).config = some config → ∃ h since, Tenure s h config since w) :
    ∃ h since, Tenure s h config since v := by
  rcases turn.created with ⟨idle,same⟩ | ⟨serves,made⟩
  · have kept : (w.session s).config = some config := (congrArg (·.2.2.2) same).symm.trans adopted
    exact absurd (before.standing.serves kept) idle
  have made := adopted.symm.trans (congrArg (·.2.2.2) made)
  cases checked : Config.check options (platform.map w.host) with
  | ok later =>
    obtain ⟨h,rfl⟩ := Option.isSome_iff_exists.mp (by simpa using Config.manned_of_check checked)
    rw [checked] at made
    obtain rfl : config = later := Option.some.inj made
    exact ⟨h,[],.created before serves checked turn⟩
  | error rejection =>
    rw [checked] at made
    obtain ⟨h,since,tenure⟩ := earlier made.symm
    exact ⟨h,_,.handed tenure checked turn⟩

theorem Course.tenure_configured {options : Json} (before : Course s w) (turn : Turn s (.configure s options) w v)
    (adopted : (v.session s).config = some config)
    (earlier : (w.session s).config = some config → ∃ h since, Tenure s h config since w) :
    ∃ h since, Tenure s h config since v := by
  obtain ⟨tools,behaviour,depth,reply,issues,run⟩ := turn
  rcases Turn.configured issues run with ⟨-,-,rfl⟩ | ⟨u,told,⟨rfl,same⟩ | ⟨rfl,later,accepted,made⟩⟩
  · exact earlier adopted
  · obtain ⟨h,since,tenure⟩ := earlier ((congrArg (·.2.2.2) same).symm.trans adopted)
    exact ⟨h,since,.declined tenure issues run⟩
  · have manned : (w.session s).host.isSome := by simpa using Config.manned_of_check accepted
    obtain ⟨h,placed⟩ := Option.isSome_iff_exists.mp manned
    obtain rfl : config = later := Option.some.inj (adopted.symm.trans (congrArg (·.2.2.2) made))
    rw [placed] at accepted
    exact ⟨h,[],.configured before placed issues told accepted run⟩

/-- No options are in force but by a tenure. -/
theorem Course.tenure (course : Course s w) (adopted : (w.session s).config = some config) :
    ∃ h since, Tenure s h config since w := by
  induction course generalizing config with
  | start fresh bare =>
    rw [fresh.sessions s] at adopted
    cases adopted
  | @turn command w v before turn ih =>
    by_cases rules : command.Rules s
    · have standing := before.standing
      have serves := (turn.keeps standing).1.serves adopted
      -- a session with options is not at its end, so the command was not one that ends it
      have lasts : ¬command.Ends s := fun ends => turn.ended standing ends serves
      cases command with
      | create t platform hook logger options =>
        cases rules
        exact before.tenure_created turn adopted ih
      | configure t options =>
        cases rules
        exact before.tenure_configured turn adopted ih
      | dispose t => exact absurd rules lasts
      | drop t => exact absurd rules lasts
      | _ => exact rules.elim
    · have kept := congrArg (·.2.2.2) (turn.unruled rules)
      obtain ⟨h,since,tenure⟩ := ih (kept.symm.trans adopted)
      exact ⟨h,since,.unruled tenure rules turn⟩

/-- What is in force passed on the host that the session had then, and this is its host still unless it was
created again with options that did not pass. These leave it with the host, the logger and the hook that were handed
over with them, and with the options that it had; new options that are declined leave it with all that it had. -/
theorem config_tenured (course : Course s w) :
    (∀ config, (w.session s).config = some config ↔ ∃ h since, Tenure s h config since w) ∧
    (∀ h config since, Tenure s h config since w → (w.session s).host = since.head?.getD (some h)) ∧
    (∀ platform hook logger options rejection v, (w.session s).config.isSome →
      Config.check options (platform.map w.host) = .error rejection →
      Turn s (.create s platform hook logger options) w v →
      (v.session s).belongings = (platform,some logger,some hook,(w.session s).config)) ∧
    (∀ tools behaviour depth options v,
      (∀ entry w, (behaviour entry w : Script).Issues fun command => ¬command.Rules s) →
      (Environment.scripted tools behaviour depth).perform (.configure s options) w = some (.flag false,v) →
      (v.session s).belongings = (w.session s).belongings) := by
  refine ⟨fun config => ⟨course.tenure,?_⟩,fun h config since tenure => tenure.belongings.2,?_,?_⟩
  · rintro ⟨h,since,tenure⟩
    exact tenure.belongings.1
  · intro platform hook logger options rejection v adopted rejected turn
    obtain ⟨config,adopted⟩ := Option.isSome_iff_exists.mp adopted
    rcases turn.created with ⟨idle,-⟩ | ⟨-,made⟩
    · exact absurd (course.standing.serves adopted) idle
    · rw [made,rejected]
      rfl
  · intro tools behaviour depth options v issues run
    rcases Turn.configured issues run with ⟨-,none,-⟩ | ⟨u,told,⟨-,same⟩ | ⟨none,-⟩⟩
    · cases none
    · exact same
    · cases none

end Courses

section Evicted

/-- The session was created once more, this time without a host. -/
def World.evicted : World MemoryHost :=
  {World.manned with
    sessions := ⟨[{World.manned.session 0 with host := none}]⟩
    trace := World.manned.trace ++ [
      .logged 0 (Config.rejectionLine .noHost),
      .emitted 0 (.activationRejected Rejection.noHost.message)]}

theorem manned_evicted : Turn 0 (.create 0 none 0 0 plainOptions) World.manned World.evicted := by
  have run : Environment.stamping.perform (.create 0 none 0 0 plainOptions) .manned = some (.service 0,.evicted) := by
    rfl
  exact ⟨_,fun _ _ => .done,0,_,fun _ _ => trivial,run⟩

/-- The session has kept its options, but not the host on which they passed, and they pass without a host under no
circumstances. -/
theorem evicted_unhoused : Course 0 World.manned ∧ (World.manned.session 0).host = some 0 ∧
    Config.check plainOptions (none : Option MemoryHost) = .error .noHost ∧
    Turn 0 (.create 0 none 0 0 plainOptions) World.manned World.evicted ∧
    (World.evicted.session 0).config = some plainContext.config ∧ (World.evicted.session 0).host = none ∧
    (∀ options, Config.check options (none : Option MemoryHost) ≠ .ok plainContext.config) ∧
    (World.evicted.session 0).context? = none :=
  ⟨manned_course,rfl,rfl,manned_evicted,rfl,rfl,fun options accepted => (by cases accepted),rfl⟩

/-- The options are still those that passed on the first host, which the session has no longer. -/
theorem evicted_tenured : ∃ h since, Tenure 0 h plainContext.config since World.evicted ∧
    since.head?.getD (some h) = none ∧
    (World.evicted.session 0).belongings = (none,some 0,some 0,(World.manned.session 0).config) := by
  obtain ⟨-,-,rejects,-⟩ := config_tenured manned_course
  obtain ⟨adopted,placed,-,-⟩ := config_tenured (.turn manned_course manned_evicted)
  obtain ⟨h,since,tenure⟩ := (adopted plainContext.config).mp rfl
  exact ⟨h,since,tenure,(placed h _ since tenure).symm,rejects none 0 0 plainOptions .noHost _ rfl rfl manned_evicted⟩

end Evicted
end Phrasebook
