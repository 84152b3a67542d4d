import Phrasebook.Proofs.Session.Freshness
import Phrasebook.Proofs.Session.Installation

/-! What is left of a session that was disposed of. Its last word is how many watches it had open, and from then on
resolution goes through it as if it were not there, whatever it is asked: `disposed_transparent`. -/
namespace Phrasebook

/-- Commands that may come to a session after its end. -/
def Command.Follows (s : Nat) : Command → Prop
  | .create t _ _ _ _ | .configure t _ | .regenerate t | .refresh t | .dispose t => t = s
  | .resolve _ _ | .edit _ _ _ | .notify _ _ => True
  | _ => False

theorem Command.Ends.operates {s : Nat} {command : Command} (ends : command.Ends s) : command.Operates s := by
  cases command <;> first | exact ends | exact ends.elim

/-- Carries out commands one after the other. -/
def Environment.carryOut (env : Environment MemoryHost) :
    List Command → World MemoryHost → Option (List Reply × World MemoryHost)
  | [],w => some ([],w)
  | command :: rest,w => do
    let (reply,w) ← env.perform command w
    let (replies,w) ← env.carryOut rest w
    some (reply :: replies,w)

namespace World

/-- How many watches hosts have open for a session. -/
def openCount (s : Nat) (w : World MemoryHost) : Nat :=
  ((List.range w.hosts.size).flatMap fun h => w.openOn h (.session s)).length

/-- Its watch set lists each of them once. -/
theorem Accounted.length_watches {w : World MemoryHost} (accounted : w.Accounted) (s : Nat) :
    (w.session s).watches.length = w.openCount s := by
  have covered : ∀ handle ∈ (w.session s).watches, handle.host ∈ List.range w.hosts.size := by
    intro handle member
    have listed : handle ∈ w.openOn handle.host (.session s) := by
      rw [accounted.owned]
      exact List.mem_filter.mpr ⟨member,by simp⟩
    refine List.mem_range.mpr (Nat.lt_of_not_le fun unused => ?_)
    have nothing : w.host handle.host = default := Slots.get_of_size_le _ unused
    rw [openOn,nothing] at listed
    cases listed
  rw [(perm_groups (·.host) List.nodup_range covered).length_eq,openCount]
  simp only [accounted.owned]
  rfl

theorem emissions_unwatch (owner : Subscriber) (w : World MemoryHost) : (w.unwatch owner).emissions = w.emissions := by
  have closes {u : World MemoryHost} (handle : Handle) (same : u.emissions = w.emissions) :
      (u.close handle).emissions = w.emissions := by
    rw [close,emissions_record]
    exact (List.append_nil _).trans same
  refine unwatch_keeps (P := fun u => u.emissions = w.emissions) closes (fun handles same => ?_) rfl
  cases owner with
  | session s => exact (emissions_reach _ _ _ _).trans same
  | recorder r => exact same

theorem emissions_closing (s : Nat) (w : World MemoryHost) : (w.closing s).emissions =
    w.emissions ++ ((w.session s).sink.map (·,Event.disposed (w.session s).watches.length)).toList := by
  rw [closing,emissions_tell,emissions_say,emissions_unwatch,retire,emissions_reach]
  simp

variable {s : Nat} {heard : Bool} {edited : Nat → Path → Prop} {command : Command} {w v : World MemoryHost}

/-- When nobody watches files, a closed session can but sleep. -/
theorem Lone.dormant (lone : w.Lone s heard) (closed : w.Closed s) (orderly : w.Orderly) (accounted : w.Accounted) :
    w.Dormant s where
  bare := closed.config
  idle := orderly.idle s
  unwatched := closed.watches
  hosts h := by
    refine List.eq_nil_iff_forall_not_mem.mpr fun watch member => ?_
    have owned := Accounts.mem accounted member
    by_cases own : watch.subscriber = .session s
    · have nothing : w.watches (.session s) = [] := closed.watches
      rw [own,nothing] at owned
      cases owned
    · rw [lone.watches _ own] at owned
      cases owned
  layers h := by
    obtain ⟨cover,covers⟩ := lone.cover
    rw [covers.layers]
    split
    · exact .inr rfl
    · exact .inl rfl

/-- What comes back is the same as long as the session sleeps. -/
theorem Sleeps.reply (sleeps : Sleeps s edited w v) (follows : command.Follows s) :
    v.reply command = w.reply command := by
  obtain ⟨requested,own⟩ := sleeps.own
  cases command with
  | create | configure | refresh => cases follows; simp [World.reply,own]
  | resolve => simp [World.reply,sleeps.hooks]
  | _ => rfl

section Ended

variable {env : Environment MemoryHost} (quiet : env.Quiet)

include quiet

theorem Dormant.follow (dormant : w.Dormant s) (ended : (w.session s).phase = .disposed)
    (follows : command.Follows s) :
    ∃ v, env.perform command w = some (w.reply command,v) ∧ Sleeps s command.Edits w v := by
  have stirred (stirs : command.Stirs s) := dormant.perform env stirs (by simp [ended])
  cases command with
  | create t platform hook logger options =>
    cases follows
    cases left : (w.session s).dropped with
    | true => exact ⟨w,by simp [Environment.perform,Environment.onSession,left,World.reply],.refl w⟩
    | false =>
      refine ⟨w.say (some logger) "plugin disposed, ignoring create",?_,.say _ _⟩
      simp [Environment.perform,Environment.onSession,left,Environment.create,ended,quiet.log_eq,World.reply]
  | configure t options =>
    cases follows
    cases left : (w.session s).dropped with
    | true => exact ⟨w,by simp [Environment.perform,Environment.onSession,left,World.reply],.refl w⟩
    | false =>
      refine ⟨(w.say (w.session s).logger "config changed").say (w.session s).logger
        "plugin disposed, ignoring new config",?_,(Sleeps.say _ _).trans (.say _ _)⟩
      simp [Environment.perform,Environment.onSession,left,Environment.configure,ended,quiet.log_eq,World.reply]
  | dispose t =>
    cases follows
    refine ⟨w,?_,.refl w⟩
    cases left : (w.session s).dropped <;>
      simp [Environment.perform,Environment.onSession,left,Environment.dispose,ended,World.reply]
  | regenerate | refresh => exact stirred follows
  | resolve | edit | notify => exact stirred trivial
  | _ => exact follows.elim

/-- Each command finds the session as asleep as the one before. -/
theorem Dormant.carryOut {commands : List Command} (dormant : w.Dormant s)
    (ended : (w.session s).phase = .disposed) (follows : ∀ command ∈ commands, command.Follows s) :
    ∃ v, env.carryOut commands w = some (commands.map w.reply,v) ∧
      Sleeps s (fun h path => ∃ command ∈ commands, command.Edits h path) w v := by
  induction commands generalizing w with
  | nil => exact ⟨w,rfl,.refl w⟩
  | cons command rest ih =>
    obtain ⟨first,later⟩ := List.forall_mem_cons.mp follows
    obtain ⟨u,run,sleeps⟩ := dormant.follow quiet ended first
    obtain ⟨requested,own⟩ := sleeps.own
    obtain ⟨v,carried,onward⟩ := ih (dormant.sleeps sleeps) (by rw [own]; exact ended) later
    have same : rest.map u.reply = rest.map w.reply :=
      List.map_congr_left fun command member => sleeps.reply (later command member)
    refine ⟨v,?_,(sleeps.mono ?_).trans (onward.mono ?_)⟩
    · simp [Environment.carryOut,run,carried,same]
    · exact fun h path edits => ⟨command,List.mem_cons_self,edits⟩
    · rintro h path ⟨command,member,edits⟩
      exact ⟨command,List.mem_cons_of_mem _ member,edits⟩

end Ended
end World

section Disposed

variable {tools : Toolchain} {s : Nat} {command : Command} {reply : Reply} {start w v : World MemoryHost}

/-- The end of a session is heard of once. -/
theorem emissions_of_ends (orderly : w.Orderly) (accounted : w.Accounted) (ends : command.Ends s)
    (run : (Environment.silent tools).perform command w = some (reply,v)) :
    v.emissions = w.emissions ++ if (w.session s).phase = .disposed then [] else
      ((w.session s).sink.map (·,Event.disposed (w.openCount s))).toList := by
  rcases ended_cases ends run with ⟨dropped,rfl⟩ | ⟨u,dispose,outcome⟩
  · simp [(orderly.standing s).dropped dropped]
  · have disposed : u.emissions = w.emissions ++ if (w.session s).phase = .disposed then [] else
        ((w.session s).sink.map (·,Event.disposed (w.openCount s))).toList := by
      split
      next ended =>
        rw [Environment.dispose,if_pos ended] at dispose
        cases dispose
        exact (List.append_nil _).symm
      next live =>
        cases ((Environment.silent_quiet tools).dispose_eq live).symm.trans dispose
        rw [World.emissions_closing,accounted.length_watches]
    rw [← disposed]
    rcases outcome with rfl | rfl
    · rfl
    · unfold World.release
      split
      · exact World.emissions_unwatch _ _
      · rfl

/-- However a session came to its end, and whatever it is asked afterwards: its end is heard of once, with the
number of watches that were open; no watch is open any more; and of all that comes later nothing comes. New options
and refreshes are turned down, names are resolved as if it were not there, and no file differs that nobody edits. -/
theorem disposed_transparent (blank : start.Blank) (passes : Passes (Command.Operates s) start w)
    (ends : command.Ends s) (run : (Environment.silent tools).perform command w = some (reply,v)) :
    (v.emissions = w.emissions ++ if (w.session s).phase = .disposed then [] else
      ((w.session s).sink.map (·,Event.disposed (w.openCount s))).toList) ∧
    (∀ h, (v.host h).watches = []) ∧
    ∀ (later : Toolchain) (commands : List Command), (∀ command ∈ commands, command.Follows s) →
      ∃ u, (Environment.silent later).carryOut commands v = some (commands.map v.reply,u) ∧
        v.Sleeps s (fun h path => ∃ command ∈ commands, command.Edits h path) u := by
  have orderly := passes.orderly blank
  have accounted := Reachable.accounted ⟨_,blank.toFresh,passes.leads⟩
  have whole : Passes (Command.Operates s) start v := .perform passes ends.operates run
  have closed := closed_of_ends (orderly.closed s) (orderly.standing s).dropped ends run
  have dormant := (whole.alone blank).1.dormant closed (whole.orderly blank)
    (Reachable.accounted ⟨_,blank.toFresh,whole.leads⟩)
  exact ⟨emissions_of_ends orderly accounted ends run,dormant.hosts,fun later commands follows =>
    dormant.carryOut (Environment.silent_quiet later) closed.phase follows⟩

end Disposed

section Inner

/-- The output is among the locale files. -/
def innerOptions : Json := .object
  [("moduleName",.string "i18n"),("localesDirectory",.string "/p/locales"),("outputPath",.string "/p/locales/de.yaml")]

def innerContext : Context := ⟨0,some 0,⟨"i18n",⟨"/p/locales"⟩,⟨"/p/locales/de.yaml"⟩,.normal⟩⟩

def World.inner : World MemoryHost :=
  (((Environment.silent .copying).perform (.create 0 (some 0) 0 0 innerOptions) .vacant).map (·.2)).getD .vacant

/-- On the first refresh the session writes its output and comes to watch it. -/
theorem inner_refreshes {p : World MemoryHost → Bool}
    (ran : ((Environment.silent .copying).refreshOnce 0 .inner).any p = true) :
    ∃ w, Passes (Command.Operates 0) .vacant w ∧ p w = true := by
  obtain ⟨w,once,shown⟩ := (Option.any_eq_true _ _).mp ran
  have created : (Environment.silent .copying).perform (.create 0 (some 0) 0 0 innerOptions) .vacant =
      some (.service 0,.inner) := by rfl
  exact ⟨w,.perform (.perform (.refl _) (by rfl) created) (by rfl) (Environment.refresh_of_once once),shown⟩

/-- An edit of the output that was itself watched makes it differ, as it does whoever wrote it. -/
theorem inner_output_edited : ∃ w v u : World MemoryHost, World.vacant.Blank ∧
    Passes (Command.Operates 0) .vacant w ∧ (w.session 0).config = some innerContext.config ∧
    innerContext.config.outputPath ∈ (w.session 0).watches.map (·.path) ∧
    (Environment.silent .copying).perform (.dispose 0) w = some (.done,v) ∧
    (Environment.silent .copying).carryOut [.edit 0 innerContext.config.outputPath "c: d"] v = some ([.done],u) ∧
    (v.host 0).file? innerContext.config.outputPath = some "a: b" ∧
    (u.host 0).file? innerContext.config.outputPath = some "c: d" := by
  obtain ⟨w,passes,shown⟩ := inner_refreshes (p := fun w =>
    (w.session 0).phase = .active ∧ (w.session 0).dropped = false ∧
    (w.session 0).config = some innerContext.config ∧
    innerContext.config.outputPath ∈ (w.session 0).watches.map (·.path) ∧
    ((w.closing 0).host 0).file? innerContext.config.outputPath = some "a: b" ∧
    ((Environment.silent .copying).carryOut [.edit 0 innerContext.config.outputPath "c: d"] (w.closing 0)).any
      fun (replies,u) => replies = [.done] ∧
        (u.host 0).file? innerContext.config.outputPath = some "c: d") (by decide +kernel)
  obtain ⟨active,held,config,watched,output,edits⟩ := of_decide_eq_true shown
  obtain ⟨⟨replies,u⟩,carried,facts⟩ := (Option.any_eq_true _ _).mp edits
  obtain ⟨rfl,edited⟩ := of_decide_eq_true facts
  refine ⟨w,w.closing 0,u,World.vacant_blank,passes,config,watched,?_,carried,output,edited⟩
  simp [Environment.perform,Environment.onSession,held,
    (Environment.silent_quiet .copying).dispose_eq (s := 0) (w := w) (by simp [active])]

/-- What the session is asked after its end. -/
def afterwards : List Command :=
  [.configure 0 innerOptions,.refresh 0,.edit 0 ⟨"/p/locales/en.yaml"⟩ "c: d",.resolve 0 mainQuery]

/-- Two watches are closed, and then new options, a refresh, an edit and a resolution come to nothing. -/
theorem inner_transparent : ∃ w v u : World MemoryHost, World.vacant.Blank ∧
    Passes (Command.Operates 0) .vacant w ∧ (Command.dispose 0).Ends 0 ∧
    (Environment.silent .copying).perform (.dispose 0) w = some (.done,v) ∧
    v.emissions = w.emissions ++ [(0,.disposed 2)] ∧ (∀ command ∈ afterwards, command.Follows 0) ∧
    (Environment.silent .copying).carryOut afterwards v =
      some ([.flag false,.flag false,.done,.answers [none]],u) ∧
    u.emissions = v.emissions ∧ (u.host 0).writes = [innerContext.config.outputPath] ∧
    (u.host 0).file? innerContext.config.outputPath = some "a: b" ∧ (u.session 0).runs = 1 := by
  obtain ⟨w,passes,shown⟩ := inner_refreshes (p := fun w =>
    (w.session 0).phase = .active ∧ (w.session 0).dropped = false ∧ (w.session 0).sink = some 0 ∧ w.openCount 0 = 2 ∧
    afterwards.map (w.closing 0).reply = [.flag false,.flag false,.done,.answers [none]] ∧
    ((w.closing 0).host 0).writes = [innerContext.config.outputPath] ∧
    ((w.closing 0).host 0).file? innerContext.config.outputPath = some "a: b" ∧
    ((w.closing 0).session 0).runs = 1) (by decide +kernel)
  obtain ⟨active,held,sink,count,replies,writes,output,runs⟩ := of_decide_eq_true shown
  have run : (Environment.silent .copying).perform (.dispose 0) w = some (.done,w.closing 0) := by
    simp [Environment.perform,Environment.onSession,held,
      (Environment.silent_quiet .copying).dispose_eq (s := 0) (w := w) (by simp [active])]
  have follows : ∀ command ∈ afterwards, command.Follows 0 := by
    simp [afterwards,Command.Follows]
  obtain ⟨heard,-,later⟩ := disposed_transparent World.vacant_blank passes (by rfl) run
  obtain ⟨u,carried,sleeps⟩ := later .copying afterwards follows
  obtain ⟨requested,own⟩ := sleeps.own
  refine ⟨w,w.closing 0,u,World.vacant_blank,passes,rfl,run,?_,follows,replies ▸ carried,sleeps.emissions,
    (sleeps.hosts 0).writes.trans writes,?_,?_⟩
  · rw [heard,active,sink,count]
    rfl
  · rw [sleeps.files,output]
    rintro ⟨command,member,edits⟩
    simp only [afterwards,List.mem_cons,List.not_mem_nil,or_false] at member
    rcases member with rfl | rfl | rfl | rfl
    · exact edits
    · exact edits
    · exact absurd edits.2 (by decide +kernel)
    · exact edits
  · rw [own]
    exact runs

end Inner
end Phrasebook
