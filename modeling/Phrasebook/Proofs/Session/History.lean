import Phrasebook.Proofs.Session.Step

/-! The history of a session tells what it serves, watches and has run (`history_tells`), and every
milestone has a command that caused it (`history_caused`). -/
namespace Phrasebook

/-- What a session shows of itself. -/
structure Outline where
  config : Option Config
  disposed : Bool
  watched : List Path
  runs : Nat
  last : Option Status
deriving DecidableEq

def Session.outline (session : Session) : Outline :=
  ⟨session.config,session.phase = .disposed,session.watches.map (·.path),session.runs,session.last⟩

/-- The outline after a milestone. -/
def Outline.redraw (outline : Outline) : Milestone → Outline
  | .adopted config => {outline with config := some config,disposed := false}
  | .hooked => {outline with disposed := false}
  | .requested => outline
  | .started _ => {outline with runs := outline.runs + 1}
  | .ended status => {outline with last := some status}
  | .watching files => {outline with watched := files}
  | .disposed => {outline with config := none,disposed := true,watched := []}

def Outline.replay (outline : Outline) (history : List Milestone) : Outline := history.foldl redraw outline

@[simp] theorem Outline.replay_nil (outline : Outline) : outline.replay [] = outline := rfl

@[simp] theorem Outline.replay_cons (outline : Outline) (first : Milestone) (rest : List Milestone) :
    outline.replay (first :: rest) = (outline.redraw first).replay rest := rfl

@[simp] theorem Outline.replay_append (outline : Outline) (before after : List Milestone) :
    outline.replay (before ++ after) = (outline.replay before).replay after := List.foldl_append

/-- The session went from one world to another by these milestones. -/
structure Told (s : Nat) (a b : World MemoryHost) (news : List Milestone) : Prop where
  history : b.history s = a.history s ++ news
  outline : (b.session s).outline = (a.session s).outline.replay news

theorem Told.trans {s : Nat} {a b c : World MemoryHost} {first next : List Milestone}
    (start : Told s a b first) (rest : Told s b c next) : Told s a c (first ++ next) :=
  ⟨by rw [rest.history,start.history,List.append_assoc],
    by rw [rest.outline,start.outline,Outline.replay_append]⟩

/-- What was told since some point of the history. -/
theorem Told.since {s : Nat} {a b c : World MemoryHost} {first all next : List Milestone}
    (start : Told s a b first) (whole : Told s a c all) (history : c.history s = b.history s ++ next) :
    Told s b c next := by
  have split : all = first ++ next := by
    rw [whole.history,start.history,List.append_assoc] at history
    exact List.append_cancel_left history
  exact ⟨history,by rw [whole.outline,split,Outline.replay_append,start.outline]⟩

/-- A session that the change does not concern. -/
theorem Told.silent {s : Nat} {a b : World MemoryHost} (history : b.history s = a.history s)
    (outline : (b.session s).outline = (a.session s).outline) : Told s a b [] :=
  ⟨by rw [history,List.append_nil],outline⟩

section Changes

variable {s t : Nat} {w : World MemoryHost}

theorem told_modify {f : Session → Session}
    (same : ∀ session, (f session).outline = session.outline) : Told s w (w.modify t f) [] := by
  refine .silent rfl ?_
  rw [World.session_modify]
  split
  · exact same _
  · rfl

theorem told_reach {milestone : Milestone} {f : Session → Session}
    (follows : (f (w.session t)).outline = (w.session t).outline.redraw milestone) :
    ∃ news, Told s w (w.reach t milestone f) news := by
  by_cases same : t = s
  · subst t
    exact ⟨[milestone],by simp,by simp [follows]⟩
  · exact ⟨[],by simp [same],by simp [same]⟩

theorem told_setWatches (owner : Subscriber) (handles : List Handle) :
    ∃ news, Told s w (w.setWatches owner handles) news := by
  cases owner with
  | session t => exact told_reach rfl
  | recorder r => exact ⟨[],.silent rfl rfl⟩

theorem told_unwatch (owner : Subscriber) : ∃ news, Told s w (w.unwatch owner) news := by
  obtain ⟨news,told⟩ := told_setWatches (s := s) (w := w.closeAll (w.watches owner)) owner []
  exact ⟨news,by simpa using told.history,by simpa using told.outline⟩

theorem told_rewatch (owner : Subscriber) (h : Nat) (files : List Path) :
    ∃ news, Told s w (w.rewatch owner h files).2 news := by
  obtain ⟨closed,told⟩ := told_unwatch (s := s) (w := w) owner
  have opened : Told s w (World.openAll owner h files [] (w.unwatch owner)).2 closed :=
    ⟨by simpa using told.history,by simpa using told.outline⟩
  rcases w.rewatch_eq owner h files with same | ⟨handles,same⟩
  · exact ⟨closed,same ▸ opened⟩
  · obtain ⟨set,later⟩ := told_setWatches (s := s)
      (w := (World.openAll owner h files [] (w.unwatch owner)).2) owner handles
    exact ⟨closed ++ set,same ▸ opened.trans later⟩

end Changes

theorem Step.told {issued : Command → Prop} {a b c : World MemoryHost} (step : Step issued a b c)
    (s : Nat) : ∃ news, Told s b c news := by
  cases step with
  | record entry silent => exact ⟨[],.silent (by simp [silent s]) rfl⟩
  | host => exact ⟨[],.silent rfl rfl⟩
  | renewSink t =>
    refine ⟨[],.silent rfl ?_⟩
    rw [World.session_renewSink]
    split <;> rfl
  | wrap | hold | leave => exact ⟨[],.silent rfl rfl⟩
  | generate | lock | unlock | heed | introduce | install | drop =>
    exact ⟨[],told_modify fun _ => rfl⟩
  | request | start | finish | create | activate => exact told_reach rfl
  | configure t options config configures live =>
    apply told_reach
    by_cases fresh : (b.session t).phase = .uninitialized
    · simp [Session.outline,Outline.redraw,fresh]
    · simp [Session.outline,Outline.redraw,fresh,live]
  | rewatch t context files => exact told_rewatch _ _ _
  | release t =>
    unfold World.release
    split
    · exact told_unwatch _
    · exact ⟨[],.silent rfl rfl⟩
  | rewatchRecorder => exact told_rewatch _ _ _
  | unwatchRecorder => exact told_unwatch _
  | dispose t =>
    by_cases same : t = s
    · subst t
      exact ⟨[.disposed,.watching []],by simp [World.retire],by simp [World.retire,Session.outline,Outline.redraw]⟩
    · exact ⟨[],.silent (by simp [World.retire,same]) (by simp [World.retire,same])⟩

/-- Whatever is carried out, the history of a session goes on with milestones that account for how
the session has changed. -/
theorem history_tells (issued : Command → Prop) (s : Nat) :
    Lasting issued fun a b => ∃ news, Told s a b news where
  refl w := ⟨[],.silent rfl rfl⟩
  trans := by
    rintro a b c ⟨first,start⟩ ⟨next,rest⟩
    exact ⟨first ++ next,start.trans rest⟩
  step := by
    rintro a b c ⟨first,start⟩ step
    obtain ⟨next,rest⟩ := step.told s
    exact ⟨first ++ next,start.trans rest⟩

/-- Commands are under way that may bring a session to a milestone. -/
def Milestone.Caused (issued : Command → Prop) (s : Nat) : Milestone → Prop
  | .adopted _ | .hooked => ∃ command, issued command ∧ command.Adopts s
  | .watching files => files = [] ∨ ∃ command, issued command ∧ command.Watches s
  | .disposed => issued (.dispose s) ∨ issued (.drop s)
  | .requested | .started _ | .ended _ => True

/-- The history goes on with milestones that have a cause. -/
def Gains (issued : Command → Prop) (s : Nat) (a b : World MemoryHost) : Prop :=
  ∃ news, b.history s = a.history s ++ news ∧ ∀ m ∈ news, m.Caused issued s

namespace Gains

variable {issued : Command → Prop} {s t : Nat} {a b c w : World MemoryHost}

theorem none (same : b.history s = a.history s) : Gains issued s a b := ⟨[],by simp [same],by simp⟩

theorem trans (first : Gains issued s a b) (next : Gains issued s b c) : Gains issued s a c := by
  obtain ⟨news,start,caused⟩ := first
  obtain ⟨more,rest,still⟩ := next
  refine ⟨news ++ more,by rw [rest,start,List.append_assoc],?_⟩
  intro m member
  exact (List.mem_append.mp member).elim (caused m) (still m)

theorem reach {milestone : Milestone} {f : Session → Session} (caused : t = s → milestone.Caused issued s) :
    Gains issued s w (w.reach t milestone f) := by
  refine ⟨_,World.history_reach w s t milestone f,?_⟩
  intro m member
  split at member
  next same => exact List.mem_singleton.mp member ▸ caused same
  · cases member

theorem setWatches {owner : Subscriber} {handles : List Handle} (caused : owner = .session s →
      (Milestone.watching (handles.map (·.path))).Caused issued s) :
    Gains issued s w (w.setWatches owner handles) := by
  cases owner with
  | session t => exact reach fun same => caused (congrArg _ same)
  | recorder r => exact none rfl

theorem unwatch (owner : Subscriber) : Gains issued s w (w.unwatch owner) :=
  (none (World.history_closeAll w s _)).trans (setWatches fun _ => .inl rfl)

theorem rewatch {owner : Subscriber} (h : Nat) (files : List Path)
    (watches : owner = .session s → ∃ command, issued command ∧ command.Watches s) :
    Gains issued s w (w.rewatch owner h files).2 := by
  have opened : Gains issued s w (World.openAll owner h files [] (w.unwatch owner)).2 :=
    (unwatch owner).trans (none (World.history_openAll _ _ _ _ _ _))
  rcases w.rewatch_eq owner h files with same | ⟨handles,same⟩
  · exact same ▸ opened
  · exact same ▸ opened.trans (setWatches fun mine => .inr (watches mine))

end Gains

theorem Step.gains {issued : Command → Prop} {a b c : World MemoryHost} (step : Step issued a b c) (s : Nat) :
    Gains issued s b c := by
  cases step with
  | record entry silent => exact .none (by simp [silent s])
  | host | wrap | hold | leave | renewSink | generate | lock | unlock | heed | introduce | install | drop => exact .none rfl
  | request | start | finish => exact .reach fun _ => trivial
  | create t _ _ _ _ _ creates => exact .reach fun same => ⟨_,creates,same⟩
  | configure t _ _ configures => exact .reach fun same => ⟨_,configures,same⟩
  | activate t adopts => exact .reach fun same => same ▸ adopts
  | rewatch t context files watches => exact .rewatch _ _ fun same => Subscriber.session.inj same ▸ watches
  | rewatchRecorder r h files => exact .rewatch _ _ nofun
  | unwatchRecorder r => exact .unwatch _
  | release t =>
    unfold World.release
    split
    · exact .unwatch _
    · exact .none rfl
  | dispose t disposes =>
    have retired : Gains issued s b (b.retire t) := .reach fun same => same ▸ disposes
    exact retired.trans (.unwatch _)

theorem history_caused (issued : Command → Prop) (s : Nat) : Lasting issued (Gains issued s) where
  refl _ := .none rfl
  trans := .trans
  step first step := first.trans (step.gains s)

end Phrasebook
