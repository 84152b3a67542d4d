import Phrasebook.Proofs.Session.Answering
import Phrasebook.Proofs.Session.Freshness
import Phrasebook.Proofs.Session.Ruling

/-! Sessions that are laid one after the other over the same resolver. A name is answered by the one laid last of
those that claim it, and otherwise by the resolver; sessions that track none of the names take no notice:
`resolve_stacked`. -/
namespace Phrasebook

/-- What lies below all layers. A hook without a resolver answers nothing. -/
def Hook.original (hook : Hook) : Resolver := hook.baseline.getD fun _ => .ok []

/-- A session has come to lie over the resolver of a hook. -/
def Joins (s hook : Nat) (w v : World MemoryHost) : Prop :=
  ∃ news, v.history s = w.history s ++ news ∧ .hooked ∈ news ∧ (v.session s).hook = some hook

/-- Whatever commands are carried out one after the other, these sessions have come to lie over the resolver of
a hook by them, the latest first. -/
inductive Stacked (hook : Nat) : List Nat → World MemoryHost → Prop where
  | start {w : World MemoryHost} (blank : w.Blank) : Stacked hook [] w
  | passed {sessions : List Nat} {tools : Toolchain} {command : Command} {reply : Reply} {w v : World MemoryHost}
      (before : Stacked hook sessions w)
      (run : (Environment.silent tools).perform command w = some (reply,v))
      (none : ∀ s, ¬Joins s hook w v) : Stacked hook sessions v
  | joined {sessions : List Nat} {s : Nat} {tools : Toolchain} {command : Command} {reply : Reply}
      {w v : World MemoryHost} (before : Stacked hook sessions w)
      (run : (Environment.silent tools).perform command w = some (reply,v))
      (joins : Joins s hook w v) : Stacked hook (s :: sessions) v

/-- The sessions lie over the resolver in this order, each of them once. -/
structure Hook.Holds (hook : Hook) (sessions : List Nat) : Prop where
  layers : hook.layers = sessions.map .session
  nodup : sessions.Nodup
  resolver : sessions ≠ [] → hook.hasResolver

namespace Stacked

variable {hook : Nat} {sessions : List Nat} {w v : World MemoryHost}

theorem passes (stacked : Stacked hook sessions w) : ∃ start : World MemoryHost, start.Blank ∧
    Passes (fun _ => True) start w := by
  induction stacked with
  | start blank => exact ⟨_,blank,.refl _⟩
  | passed before run none ih =>
    obtain ⟨start,blank,passes⟩ := ih
    exact ⟨start,blank,.perform passes trivial run⟩
  | joined before run joins ih =>
    obtain ⟨start,blank,passes⟩ := ih
    exact ⟨start,blank,.perform passes trivial run⟩

theorem orderly (stacked : Stacked hook sessions w) : w.Orderly := by
  obtain ⟨start,blank,passes⟩ := stacked.passes
  exact passes.orderly blank

/-- Nobody joins by a command that lays nobody over a resolver. -/
theorem not_joins {s : Nat} (unhooked : ∃ news, v.history s = w.history s ++ news ∧ .hooked ∉ news) :
    ¬Joins s hook w v := by
  obtain ⟨news,history,none⟩ := unhooked
  rintro ⟨other,history',laid,-⟩
  exact none (List.append_cancel_left (history.symm.trans history') ▸ laid)

theorem holds (stacked : Stacked hook sessions w) : (w.hooks.get hook).Holds sessions := by
  induction stacked with
  | start blank => exact ⟨blank.layers hook,.nil,by simp⟩
  | passed before run none ih =>
    rcases (silent_hooks before.orderly.handed run).2 with unhooked | ⟨s,hooked⟩
    · rwa [unhooked.hooks]
    · obtain ⟨i,wrapped,handed,-,hooks⟩ := hooked.laid
      have elsewhere : i ≠ hook := by
        rintro rfl
        obtain ⟨news,history,laid⟩ := hooked.own
        exact none s ⟨news,history,laid,handed⟩
      rwa [hooks,Slots.get_put_other _ _ elsewhere]
  | @joined sessions s tools command reply w v before run joins ih =>
    rcases (silent_hooks before.orderly.handed run).2 with unhooked | ⟨t,hooked⟩
    · exact absurd joins (not_joins (unhooked.histories s))
    · obtain rfl : s = t := by
        by_contra other
        exact not_joins (hooked.others s other) joins
      obtain ⟨i,wrapped,handed,laid,hooks⟩ := hooked.laid
      obtain ⟨_,_,_,same⟩ := joins
      obtain rfl : hook = i := Option.some.inj (same.symm.trans handed)
      obtain ⟨resolver,rfl⟩ := Hook.wrap?_eq_some laid
      rw [hooks,Slots.get_put_same]
      refine ⟨by rw [ih.layers]; rfl,List.nodup_cons.mpr ⟨fun member => ?_,ih.nodup⟩,fun _ => resolver⟩
      -- who lies over a resolver is not laid over one again
      have installed := (before.orderly.standing s).installed
        ⟨hook,ih.layers ▸ List.mem_map_of_mem (f := Layer.session) member⟩
      rw [hooked.first] at installed
      cases installed

end Stacked

section Layer

variable {env : Environment MemoryHost} {s : Nat} {file : Path} {w v : World MemoryHost} {answers : Answers}

/-- The names before some of those that are answered are answered first. -/
theorem intercept_prefix {found later : List (String × Option Resolution)}
    (run : env.intercept s file (found ++ later) w = some (.ok answers,v)) :
    ∃ before u, env.intercept s file found w = some (.ok before,u) := by
  induction found generalizing w answers with
  | nil => exact ⟨[],w,rfl⟩
  | cons first rest ih =>
    obtain ⟨name,resolution⟩ := first
    have goes {answer : Option Resolution} {u : World MemoryHost}
        (run : Environment.answer answer (env.intercept s file (rest ++ later) u) = some (.ok answers,v)) :
        ∃ before x, Environment.answer answer (env.intercept s file rest u) = some (.ok before,x) := by
      obtain ⟨result,run,made⟩ := Environment.answer_eq_some.mp run
      cases result with
      | error fault => cases made
      | ok others =>
        obtain ⟨before,x,run⟩ := ih run
        exact ⟨answer :: before,x,Environment.answer_eq_some.mpr ⟨_,run,rfl⟩⟩
    rw [List.cons_append,Environment.intercept] at run
    rw [Environment.intercept]
    split at run
    · exact ⟨_,_,rfl⟩
    next context _ =>
      split at run
      next untracked => rw [if_pos untracked]; exact goes run
      next tracked =>
        rw [if_neg tracked]
        simp only [Option.bind_eq_bind,Option.bind_eq_some_iff] at run
        obtain ⟨told,log,run⟩ := run
        simp only [log,Option.bind_eq_bind,Option.bind_some]
        split at run
        next absent => rw [if_pos absent]; exact goes run
        next present =>
          rw [if_neg present]
          simp only [Option.bind_eq_some_iff] at run
          obtain ⟨made,regenerate,⟨result,watched⟩,refresh,run⟩ := run
          cases result with
          | error fault => cases run
          | ok =>
            simp only [Option.bind_eq_some_iff] at run
            obtain ⟨emitted,emit,run⟩ := run
            simp only [regenerate,refresh,emit,Option.bind_some]
            exact goes run

/-- A session that answers none of the names takes no notice. -/
theorem Environment.Quiet.intercept_unserved (quiet : env.Quiet) {found : List (String × Option Resolution)}
    (unserved : ∀ name ∈ found.map (·.1), w.serve? s name = none)
    (run : env.intercept s file found w = some (.ok answers,v)) :
    (∀ t, v.session t = w.session t) ∧ ∀ h, v.host h = w.host h := by
  induction found generalizing w answers with
  | nil => cases run; exact ⟨fun _ => rfl,fun _ => rfl⟩
  | cons first rest ih =>
    obtain ⟨name,resolution⟩ := first
    have here := unserved name (by simp)
    have passes {u : World MemoryHost} (sessions : ∀ t, u.session t = w.session t) (hosts : ∀ h, u.host h = w.host h)
        (run : Environment.answer resolution (env.intercept s file rest u) = some (.ok answers,v)) :
        (∀ t, v.session t = w.session t) ∧ ∀ h, v.host h = w.host h := by
      obtain ⟨result,run,made⟩ := Environment.answer_eq_some.mp run
      cases result with
      | error fault => cases made
      | ok later =>
        have same (name : String) : u.serve? s name = w.serve? s name :=
          World.serve?_congr (by rw [sessions]) (fun _ _ => by rw [hosts]) name
        obtain ⟨sessions',hosts'⟩ := ih (fun name member => (same name).trans (unserved name (by simp_all))) run
        exact ⟨fun t => (sessions' t).trans (sessions t),fun h => (hosts' h).trans (hosts h)⟩
    rw [Environment.intercept] at run
    split at run
    · cases run; exact ⟨fun _ => rfl,fun _ => rfl⟩
    next context ready =>
      rw [World.serve?,ready] at here
      split at run
      · exact passes (fun _ => rfl) (fun _ => rfl) run
      next tracked =>
        simp only [quiet.log_eq,Option.bind_eq_bind,Option.bind_some] at run
        split at run
        · exact passes (fun _ => by simp) (fun _ => by simp) run
        next present => simp_all

/-- What a session answers to names is not changed by what its answers set off. -/
theorem Environment.Quiet.intercept_serve (quiet : env.Quiet) (idle : (w.session s).inFlight = false)
    {found : List (String × Option Resolution)} (run : env.intercept s file found w = some (.ok answers,v))
    (name : String) : v.serve? s name = w.serve? s name := by
  by_cases unserved : ∀ name ∈ found.map (·.1), w.serve? s name = none
  · obtain ⟨sessions,hosts⟩ := quiet.intercept_unserved unserved run
    exact World.serve?_congr (by rw [sessions]) (fun _ _ => by rw [hosts]) name
  · simp only [not_forall] at unserved
    obtain ⟨other,_,served⟩ := unserved
    obtain ⟨outcome,run',concludes⟩ := quiet.intercept idle file found
    cases run'.symm.trans run
    obtain ⟨_,_,_,proceeds⟩ := Answered.rounds concludes
    cases ready : (w.session s).context? with
    | none => simp [World.serve?,ready] at served
    | some context =>
      refine proceeds.serve? ready ?_ name
      by_contra absent
      simp [World.serve?,ready,absent] at served

end Layer

namespace World

/-- A session that is held and not disposed of, and has options and a host. -/
def live (s : Nat) (w : World MemoryHost) : Bool :=
  !(w.session s).dropped && (w.session s).phase ≠ .disposed && (w.session s).context?.isSome

/-- What a session answers to a name, if it is live, tracks the name and has its locales. -/
def claim? (s : Nat) (w : World MemoryHost) (name : String) : Option Resolution :=
  if w.live s then w.serve? s name else none

theorem claim?_eq {s : Nat} {w : World MemoryHost}
    (ended : (w.session s).dropped = true ∨ (w.session s).phase = .disposed → (w.session s).config = none)
    (name : String) : w.claim? s name = w.serve? s name := by
  unfold claim?
  split
  · rfl
  next dead =>
    have bare : (w.session s).context? = none := by
      by_contra ready
      refine dead ?_
      have adopted : (w.session s).config ≠ none := fun none => ready (by simp [Session.context?,none])
      obtain ⟨held,other⟩ := not_or.mp fun either => adopted (ended either)
      simp [live,held,other,Option.isSome_iff_ne_none,ready]
    simp [serve?,bare]

/-- Some name is the session's. -/
def Tracks (w : World MemoryHost) (names : List String) (s : Nat) : Prop :=
  ∃ config, (w.session s).config = some config ∧ ∃ name ∈ names, config.tracks name = true

end World

namespace Environment

/-- The world in which a session that lies over these layers examines the name at a position. -/
def examining (env : Environment MemoryHost) (baseline : Resolver) (query : Query) (inner : List Layer) (s i : Nat)
    (w : World MemoryHost) : Option (World MemoryHost) :=
  match env.ask baseline query inner w with
  | some (.ok found,u) =>
    (env.intercept s query.containingFile ((query.names.zip (found.fit query.names.length)).take i)
      (u.hold s)).map (·.2)
  | _ => none

/-- What the latest of the sessions answers that claims the name at a position when it examines it. -/
def latest? (env : Environment MemoryHost) (baseline : Resolver) (query : Query) (w : World MemoryHost) (i : Nat)
    (name : String) : List Nat → Option Resolution
  | [] => none
  | s :: earlier =>
    ((env.examining baseline query (earlier.map .session) s i w).bind fun u => u.claim? s name).or
      (env.latest? baseline query w i name earlier)

end Environment

section Asking

variable {env : Environment MemoryHost} (quiet : env.Quiet) {baseline : Resolver} {query : Query}
  {sessions : List Nat} {s : Nat} {w v : World MemoryHost} {answers : Answers}

/-- Each name is answered by the latest session that claims it, and those that track none of them rest. -/
structure Chosen (env : Environment MemoryHost) (baseline : Resolver) (query : Query) (sessions : List Nat)
    (found answers : Answers) (w v : World MemoryHost) : Prop where
  length : sessions ≠ [] → answers.length = query.names.length
  answers : ∀ (i : Nat) (name : String), query.names[i]? = some name →
    answers[i]?.join = (env.latest? baseline query w i name sessions).or found[i]?.join
  works : World.Works (w.Tracks query.names) w v

include quiet

/-- One layer more: its session goes first, and examines each name in a world that it finds as it left it. -/
theorem Chosen.intercept {found below : Answers} {u x : World MemoryHost}
    (chosen : Chosen env baseline query sessions found below w u)
    (asked : env.ask baseline query (sessions.map .session) w = some (.ok below,u))
    (idle : (w.session s).inFlight = false)
    (ended : (w.session s).dropped = true ∨ (w.session s).phase = .disposed → w.Closed s)
    (run : env.intercept s query.containingFile (query.names.zip (below.fit query.names.length)) (u.hold s) =
      some (.ok answers,x)) :
    Chosen env baseline query (s :: sessions) found answers w ((x.leave s).release s) := by
  have works := chosen.works
  have idle := (works.inFlight s).trans idle
  obtain ⟨outcome,run',concludes⟩ := quiet.intercept (w := u.hold s) idle query.containingFile
    (query.names.zip (below.fit query.names.length))
  cases run'.symm.trans run
  have own : answers = _ := Answered.answers concludes
  have fits : (below.fit query.names.length).length = query.names.length := by simp [Answers.fit]
  refine ⟨fun _ => by simp [own,fits],fun i name at_ => ?_,?_⟩
  · have bound : i < query.names.length := (List.getElem?_eq_some_iff.mp at_).1
    have both : (query.names.zip (below.fit query.names.length))[i]? = some (name,below[i]?.join) :=
      List.getElem?_zip_eq_some.mpr ⟨at_,Answers.getElem?_fit below bound⟩
    -- the names before this one have been answered when the session comes to examine it
    have split := List.take_append_drop i (query.names.zip (below.fit query.names.length))
    obtain ⟨before,y,first⟩ := intercept_prefix (split.symm ▸ run)
    have serve : y.serve? s name = u.serve? s name := quiet.intercept_serve (w := u.hold s) idle first name
    have shown {α : Type} (shown : Session → α) (bearing : ∀ session, shown session.bearing = shown session) :
        shown (y.session s) = shown (w.session s) :=
      ((quiet.works_intercept (p := (· = s)) rfl first).same shown bearing s).trans (works.same shown bearing s)
    have claims : y.claim? s name = u.serve? s name := by
      rw [World.claim?_eq ?_,serve]
      rw [shown (·.dropped) fun _ => rfl,shown (·.phase) fun _ => rfl,shown (·.config) fun _ => rfl]
      exact fun either => (ended either).config
    have examined : env.examining baseline query (sessions.map .session) s i w = some y := by
      simp [Environment.examining,asked,first]
    rw [own,List.getElem?_map,both,Environment.latest?,examined,Option.bind_some,claims,Option.or_assoc,
      ← chosen.answers i name at_]
    rfl
  · by_cases tracks : w.Tracks query.names s
    · exact works.trans (.during tracks (quiet.works_intercept tracks run))
    · have same : u.session s = w.session s := works.spared s tracks
      have names : (query.names.zip (below.fit query.names.length)).map (·.1) = query.names :=
        List.map_fst_zip (Nat.le_of_eq fits.symm)
      have unserved (name : String) (member : name ∈ query.names) : u.serve? s name = none := by
        rw [World.serve?,same]
        split
        · rfl
        next context ready =>
          refine if_neg fun claims => tracks ?_
          exact ⟨context.config,Session.config_of_context? ready,name,member,(Bool.and_eq_true_iff.mp claims).1⟩
      obtain ⟨rest,-⟩ := quiet.intercept_unserved (w := u.hold s) (names.symm ▸ unserved) run
      have closed (gone : (x.leave s).gone s = true) : ((x.leave s).session s).watches = [] := by
        have left : ((x.leave s).session s).dropped = true := World.dropped_of_gone gone
        rw [World.session_leave,rest,World.session_hold,same] at left ⊢
        exact (ended (.inl left)).watches
      have mine : World.Works (· = s) u _ := .during rfl (quiet.works_intercept rfl run)
      exact works.trans {mine with spared := fun t _ => ((World.release_unwatched closed).1 t).trans (rest t)}

theorem ask_chosen (idle : ∀ s, (w.session s).inFlight = false)
    (ended : ∀ s, (w.session s).dropped = true ∨ (w.session s).phase = .disposed → w.Closed s)
    (run : env.ask baseline query (sessions.map .session) w = some (.ok answers,v)) :
    ∃ found, baseline query = .ok found ∧ Chosen env baseline query sessions found answers w v := by
  induction sessions generalizing v answers with
  | nil =>
    simp only [List.map_nil,Environment.ask,Option.some.injEq,Prod.mk.injEq] at run
    obtain ⟨asked,rfl⟩ := run
    exact ⟨answers,asked,by simp,fun _ _ _ => rfl,.remark rfl⟩
  | cons s earlier ih =>
    simp only [List.map_cons,Environment.ask,Option.bind_eq_bind,Option.bind_eq_some_iff] at run
    obtain ⟨⟨result,u⟩,ask,run⟩ := run
    cases result with
    | error fault => cases run
    | ok below =>
      obtain ⟨found,asked,chosen⟩ := ih ask
      simp only [Option.bind_eq_some_iff] at run
      obtain ⟨⟨result,x⟩,intercept,run⟩ := run
      cases run
      exact ⟨found,asked,chosen.intercept quiet ask (idle s) (ended s) intercept⟩

end Asking

/-- Sessions have come to lie over the resolver of a hook, with whatever else happened. When a resolution
succeeds, so has the resolver; each name has the answer of the latest session that claims it on examining it,
or else its own; sessions that track none of the names are as they were; and the hook has counted the sessions. -/
theorem resolve_stacked {tools : Toolchain} {hook : Nat} {sessions : List Nat} {query : Query} {answers : Answers}
    {w v : World MemoryHost} (stacked : Stacked hook sessions w)
    (run : (Environment.silent tools).resolve hook query w = some (.ok answers,v)) :
    ∃ found, (w.hooks.get hook).original query = .ok found ∧
      (∀ (i : Nat) (name : String), query.names[i]? = some name → answers[i]?.join =
        ((Environment.silent tools).latest? (w.hooks.get hook).original query w i name sessions).or found[i]?.join) ∧
      (sessions ≠ [] → answers.length = query.names.length) ∧
      (∀ t, ¬w.Tracks query.names t → v.session t = w.session t) ∧
      sessions.Nodup ∧ (w.hooks.get hook).wrapCount = sessions.length := by
  have orderly := stacked.orderly
  have holds := stacked.holds
  have ended (s : Nat) (either : (w.session s).dropped = true ∨ (w.session s).phase = .disposed) : w.Closed s :=
    either.elim orderly.dropped (orderly.closed s)
  have count : (w.hooks.get hook).wrapCount = sessions.length := by
    rw [Hook.wrapCount,holds.layers,List.length_map]
  simp only [Environment.resolve] at run
  split at run
  next bare =>
    cases run
    have empty : sessions = [] := by
      by_contra laid
      simpa [Hook.hasResolver,bare] using holds.resolver laid
    subst empty
    refine ⟨[],by rw [Hook.original,bare]; rfl,fun i name at_ => ?_,by simp,fun _ _ => rfl,holds.nodup,count⟩
    have unanswered : (query.names.map fun _ => (none : Option Resolution))[i]? = some none := by
      rw [List.getElem?_map,at_]
      rfl
    rw [unanswered]
    rfl
  next baseline based =>
    rw [holds.layers] at run
    obtain ⟨found,asked,chosen⟩ := ask_chosen (Environment.silent_quiet tools) orderly.idle ended run
    have original : (w.hooks.get hook).original = baseline := by rw [Hook.original,based]; rfl
    rw [original]
    exact ⟨found,asked,chosen.answers,chosen.length,fun t rests => chosen.works.spared t rests,holds.nodup,count⟩

section Paired

/-- Two sessions that have yet to be given options. -/
def World.pair : World MemoryHost :=
  {World.vacant with sessions := ⟨[{sink := some 0},{sink := some 1}]⟩,sinks := 2}

def textsOptions : Json := .object
  [("moduleName",.string "texts"),("localesDirectory",.string "/p/locales"),("outputPath",.string "/p/src/texts.d.ts")]

/-- The first of them is created. -/
def World.first : World MemoryHost :=
  ((Environment.stamping.perform (.create 0 (some 0) 0 0 plainOptions) .pair).map (·.2)).getD .pair

/-- The other is created after it, for the same hook and another module. -/
def World.paired : World MemoryHost :=
  ((Environment.stamping.perform (.create 1 (some 0) 0 0 textsOptions) .first).map (·.2)).getD .pair

theorem pair_blank : World.pair.Blank where
  holds := rfl
  sessions s := by
    obtain _ | _ | _ := s <;> rfl
  recorders _ := rfl
  hosts h := by cases h <;> exact ⟨rfl,rfl,rfl⟩
  layers h := by cases h <;> rfl
  trace := rfl

theorem paired_stacked : Stacked 0 [1,0] World.paired := by
  have once : (Environment.silent Environment.stamping.toolchain).perform
      (.create 0 (some 0) 0 0 plainOptions) .pair = some (.service 0,.first) := by rfl
  have twice : (Environment.silent Environment.stamping.toolchain).perform
      (.create 1 (some 0) 0 0 textsOptions) .first = some (.service 1,.paired) := by rfl
  exact .joined (.joined (.start pair_blank) once ⟨[.adopted plainContext.config,.hooked],by rfl,by simp,rfl⟩) twice
    ⟨[.adopted ⟨"texts",⟨"/p/locales"⟩,⟨"/p/src/texts.d.ts"⟩,.normal⟩,.hooked],by rfl,by simp,rfl⟩

/-- The one created last is asked last, and the name is not its own. -/
theorem paired_resolves : ∃ v, Environment.stamping.resolve 0 mainQuery .paired =
    some (.ok [some ⟨⟨"/p/src/i18n.d.ts"⟩,false⟩],v) := by
  have ran : (Environment.stamping.interceptOnce 0 mainQuery.containingFile [("i18n",none)]
      ((World.paired.record (.asked mainQuery)).hold 0)).any (fun first =>
        (Environment.stamping.interceptOnce 1 mainQuery.containingFile (mainQuery.names.zip
          (first.1.fit mainQuery.names.length)) (((first.2.leave 0).release 0).hold 1)).any fun second =>
            second.1 = [some ⟨⟨"/p/src/i18n.d.ts"⟩,false⟩]) = true := by
    decide +kernel
  obtain ⟨⟨own,u⟩,first,ran⟩ := (Option.any_eq_true _ _).mp ran
  obtain ⟨⟨passed,v⟩,second,answers⟩ := (Option.any_eq_true _ _).mp ran
  obtain rfl := of_decide_eq_true answers
  have laid : World.paired.hooks.get 0 =
      ⟨some fun query => .ok (query.names.map fun _ => none),[.session 1,.session 0]⟩ := by rfl
  have below : Environment.stamping.ask (fun query => .ok (query.names.map fun _ => none)) mainQuery [.session 0]
      .paired = some (.ok own,(u.leave 0).release 0) :=
    Environment.ask_session rfl (Environment.intercept_of_once first)
  exact ⟨_,by rw [Environment.resolve,laid]; exact Environment.ask_session below (Environment.intercept_of_once second)⟩

/-- The first session answers its name although the other lies over it, and the other takes no notice. -/
theorem paired_answers : ∃ answers v, Environment.stamping.resolve 0 mainQuery .paired = some (.ok answers,v) ∧
    answers = [some ⟨⟨"/p/src/i18n.d.ts"⟩,false⟩] ∧
    answers[0]?.join = ((Environment.silent Environment.stamping.toolchain).latest?
      (World.paired.hooks.get 0).original mainQuery .paired 0 "i18n" [1,0]).or none ∧
    v.session 1 = World.paired.session 1 ∧ (World.paired.hooks.get 0).wrapCount = 2 := by
  obtain ⟨v,run⟩ := paired_resolves
  have silent : (Environment.silent Environment.stamping.toolchain).resolve 0 mainQuery .paired = _ := run
  obtain ⟨found,asked,answers,-,rest,-,count⟩ := resolve_stacked paired_stacked silent
  obtain rfl : [none] = found := Except.ok.inj asked
  refine ⟨_,v,run,rfl,answers 0 "i18n" rfl,rest 1 ?_,count⟩
  rintro ⟨config,adopted,name,member,tracks⟩
  obtain rfl : (⟨"texts",⟨"/p/locales"⟩,⟨"/p/src/texts.d.ts"⟩,.normal⟩ : Config) = config := Option.some.inj adopted
  obtain rfl : name = "i18n" := List.mem_singleton.mp member
  exact absurd (of_decide_eq_true tracks) (by decide)

end Paired

end Phrasebook
