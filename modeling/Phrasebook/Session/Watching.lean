import Phrasebook.Session.World

/-! Watch sets. A subscriber has at most one set, which is closed as a whole before the next
one is opened. -/
namespace Phrasebook.World

variable {σ : Type} [Inhabited σ] [Host σ]

def close (handle : Handle) (w : World σ) : World σ :=
  (w.setHost handle.host (Host.close handle.watch (w.host handle.host))).record (.closed handle.path)

def closeAll (handles : List Handle) (w : World σ) : World σ :=
  handles.foldl (fun w handle => w.close handle) w

/-- Closes the set of a subscriber. -/
def unwatch (owner : Subscriber) (w : World σ) : World σ :=
  (w.closeAll (w.watches owner)).setWatches owner []

/-- Opens a watch on each file in turn. If one is refused, those opened before are closed. -/
def openAll (owner : Subscriber) (h : Nat) :
    List Path → List Handle → World σ → Except HostFault (List Handle) × World σ
  | [],opened,w => (.ok opened,w)
  | file :: files,opened,w =>
    match Host.watch file owner (w.host h) with
    | .ok (id,state) =>
      openAll owner h files (opened ++ [⟨h,id,file⟩]) ((w.setHost h state).record (.opened file))
    | .error fault => (.error fault,w.closeAll opened)

/-- Replaces the set of a subscriber; if a watch is refused, the set stays empty. -/
def rewatch (owner : Subscriber) (h : Nat) (files : List Path) (w : World σ) :
    Except HostFault Refreshed × World σ :=
  let old := w.watches owner
  match openAll owner h files [] (w.unwatch owner) with
  | (.ok opened,w) => (.ok ⟨opened.length,old.length⟩,w.setWatches owner opened)
  | (.error fault,w) => (.error fault,w)

/-- Closes what a session opened after it was dropped, once it is gone. -/
def release (s : Nat) (w : World σ) : World σ := if w.gone s then w.unwatch (.session s) else w

theorem release_of_there {s : Nat} {w : World σ} (there : w.gone s = false) : w.release s = w := by
  rw [release,there]
  rfl

section Frame

variable (w : World σ) (s : Nat) (owner : Subscriber)

@[simp] theorem session_close (handle : Handle) : (w.close handle).session s = w.session s := rfl
@[simp] theorem history_close (handle : Handle) : (w.close handle).history s = w.history s := by
  simp [close,Entry.milestone?]

@[simp] theorem session_closeAll (handles : List Handle) :
    (w.closeAll handles).session s = w.session s := by
  induction handles generalizing w with
  | nil => rfl
  | cons handle rest ih => exact (ih (w.close handle)).trans (session_close w s handle)

@[simp] theorem history_closeAll (handles : List Handle) :
    (w.closeAll handles).history s = w.history s := by
  induction handles generalizing w with
  | nil => rfl
  | cons handle rest ih => exact (ih (w.close handle)).trans (history_close w s handle)

@[simp] theorem watches_closeAll (handles : List Handle) :
    (w.closeAll handles).watches owner = w.watches owner := by
  induction handles generalizing w with
  | nil => rfl
  | cons handle rest ih => exact (ih (w.close handle)).trans (by cases owner <;> rfl)

@[simp] theorem session_unwatch : (w.unwatch owner).session s =
    if owner = .session s then {w.session s with watches := []} else w.session s := by
  simp [unwatch]

@[simp] theorem history_unwatch : (w.unwatch owner).history s =
    w.history s ++ if owner = .session s then [.watching []] else [] := by
  simp [unwatch]

@[simp] theorem watches_unwatch (other : Subscriber) :
    (w.unwatch owner).watches other = if owner = other then [] else w.watches other := by
  simp [unwatch]

@[simp] theorem session_openAll (h : Nat) (files : List Path) (opened : List Handle) :
    (openAll owner h files opened w).2.session s = w.session s := by
  induction files generalizing opened w with
  | nil => rfl
  | cons file files ih =>
    rw [openAll]
    split
    · rw [ih]; rfl
    · exact session_closeAll w s opened

@[simp] theorem history_openAll (h : Nat) (files : List Path) (opened : List Handle) :
    (openAll owner h files opened w).2.history s = w.history s := by
  induction files generalizing opened w with
  | nil => rfl
  | cons file files ih =>
    rw [openAll]
    split
    · rw [ih]; simp [Entry.milestone?]
    · exact history_closeAll w s opened

@[simp] theorem watches_openAll (other : Subscriber) (h : Nat) (files : List Path) (opened : List Handle) :
    (openAll owner h files opened w).2.watches other = w.watches other := by
  induction files generalizing opened w with
  | nil => rfl
  | cons file files ih =>
    rw [openAll]
    split
    · rw [ih]; cases other <;> rfl
    · exact watches_closeAll w other opened

theorem rewatch_eq (h : Nat) (files : List Path) :
    (w.rewatch owner h files).2 = (openAll owner h files [] (w.unwatch owner)).2 ∨
    ∃ handles, (w.rewatch owner h files).2 =
      (openAll owner h files [] (w.unwatch owner)).2.setWatches owner handles := by
  unfold rewatch
  split
  next opened after h => exact .inr ⟨opened,by rw [h]⟩
  next fault after h => exact .inl (by rw [h])

end Frame

end Phrasebook.World
