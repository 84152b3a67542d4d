import Phrasebook.Proofs.Path.Spelling
import Phrasebook.Session.Watching

/-! What a host in memory stores. Writing changes one file, however its path is spelled (`file?_insert`),
no file goes away by it (`Grows`), and watches have nothing to do with what is stored (`store_rewatch`). What
is true of a world and has nothing to do with watches either stays true: `rewatch_keeps`. -/
namespace Phrasebook

namespace Sorted

variable {ν : Type} {path other : Path} {value : ν} {files : List (Path × ν)}

theorem get?_insert : get? other (insert path value files) =
    if other.same path then some value else get? other files := by
  induction files with
  | nil => simp only [insert,get?,Path.compare_eq_iff_same]
  | cons file rest ih =>
    obtain ⟨key,old⟩ := file
    rw [insert]
    split
    · simp only [get?,Path.compare_eq_iff_same]
    next found =>
      have spelled := Path.compare_eq_iff_same.mp found
      have either : other.same key = other.same path := by
        rw [Path.same,Path.same,Path.same_iff.mp spelled]
      simp only [get?,Path.compare_eq_iff_same,either]
      split <;> rfl
    next later =>
      simp only [get?,Path.compare_eq_iff_same,ih]
      split
      next here =>
        have elsewhere : ¬other.same path = true := by
          intro there
          have spelled := Path.same_trans (Path.same_comm ▸ there) here
          rw [Path.compare_eq_iff_same.mpr spelled] at later
          cases later
        rw [if_neg elsewhere]
      · rfl

theorem mem_keys_insert (member : other ∈ files.map (·.1)) : other ∈ (insert path value files).map (·.1) := by
  induction files with
  | nil => simp at member
  | cons file rest ih =>
    obtain ⟨key,old⟩ := file
    rw [insert]
    split
    · exact List.mem_cons_of_mem _ member
    · exact member
    · rw [List.map_cons,List.mem_cons] at member ⊢
      exact member.imp_right ih

/-- Keys that the new one is not among are the same as before. -/
theorem filter_keys_insert {p : Path → Bool} (apart : p path = false) :
    ((insert path value files).map (·.1)).filter p = (files.map (·.1)).filter p := by
  induction files with
  | nil => simp [insert,apart]
  | cons file rest ih =>
    obtain ⟨key,old⟩ := file
    rw [insert]
    split
    · simp [apart]
    · rfl
    · rw [List.map_cons,List.map_cons,List.filter_cons,List.filter_cons,ih]

/-- Writing the same twice is writing it once. -/
theorem insert_insert : insert path value (insert path value files) = insert path value files := by
  have spelled : compare path path = .eq := Path.compare_eq_iff_same.mpr (Path.same_refl path)
  induction files with
  | nil => simp only [insert,spelled]
  | cons file rest ih =>
    obtain ⟨key,old⟩ := file
    cases order : compare path key with
    | lt => simp only [insert,order,spelled]
    | eq => simp only [insert,order]
    | gt => simp only [insert,order,ih]

/-- Nothing is new about a key that was already among the kept ones with this value. -/
theorem insert_eq_self {p : Path → Bool} (kept : p path = true)
    (keys : ((insert path value files).map (·.1)).filter p = (files.map (·.1)).filter p)
    (found : get? path files = some value) : insert path value files = files := by
  induction files with
  | nil => cases found
  | cons file rest ih =>
    obtain ⟨key,old⟩ := file
    cases order : compare path key with
    | lt =>
      have longer := congrArg List.length keys
      simp [insert,order,kept] at longer
    | eq =>
      simp only [get?,order,if_true,Option.some.injEq] at found
      simp only [insert,order,found]
    | gt =>
      have later : get? path rest = some value := by simpa [get?,order] using found
      have same : ((insert path value rest).map (·.1)).filter p = (rest.map (·.1)).filter p := by
        simp only [insert,order,List.map_cons,List.filter_cons] at keys
        split at keys
        · exact (List.cons.inj keys).2
        · exact keys
      simp only [insert,order,ih same later]

theorem exists_key_of_get? (found : get? path files = some value) :
    ∃ key ∈ files.map (·.1), key.same path = true := by
  induction files with
  | nil => cases found
  | cons file rest ih =>
    obtain ⟨key,old⟩ := file
    by_cases here : compare path key = .eq
    · exact ⟨key,List.mem_cons_self,Path.same_comm ▸ Path.compare_eq_iff_same.mp here⟩
    · rw [get?,if_neg here] at found
      obtain ⟨other,member,same⟩ := ih found
      exact ⟨other,List.mem_cons_of_mem _ member,same⟩

theorem get?_of_same (same : other.same path = true) : get? other files = get? path files := by
  induction files with
  | nil => rfl
  | cons file rest ih =>
    obtain ⟨key,old⟩ := file
    have spelled : compare other key = .eq ↔ compare path key = .eq := by
      rw [Path.compare_eq_iff_same,Path.compare_eq_iff_same,Path.same,Path.same,Path.same_iff.mp same]
    simp only [get?,spelled,ih]

end Sorted

namespace MemoryHost

variable {host state : MemoryHost} {path other : Path} {content : String} {id : WatchId} {subscriber : Subscriber}

theorem file?_insert (host : MemoryHost) (path other : Path) (content : String) :
    (host.insert path content).file? other = if other.same path then some content else host.file? other :=
  Sorted.get?_insert

theorem write_eq_ok (written : host.write path content = .ok state) :
    state = {host.insert path content with writes := host.writes ++ [path]} := by
  rw [write] at written
  split at written
  · contradiction
  · cases written; rfl

/-- A host with all its files and directories, and maybe more files. -/
structure Grows (before after : MemoryHost) : Prop where
  files : ∀ path ∈ before.files.map (·.1), path ∈ after.files.map (·.1)
  directories : after.directories = before.directories
  refusesListing : after.refusesListing = before.refusesListing

theorem Grows.refl (host : MemoryHost) : host.Grows host := ⟨fun _ => id,rfl,rfl⟩

theorem Grows.trans {a b c : MemoryHost} (first : a.Grows b) (next : b.Grows c) : a.Grows c :=
  ⟨fun path member => next.files path (first.files path member),next.directories.trans first.directories,
    next.refusesListing.trans first.refusesListing⟩

theorem grows_insert (host : MemoryHost) (path : Path) (content : String) :
    host.Grows (host.insert path content) := ⟨fun _ => Sorted.mem_keys_insert,rfl,rfl⟩

theorem grows_write (written : host.write path content = .ok state) : host.Grows state := by
  rw [write_eq_ok written]
  exact ⟨fun _ => Sorted.mem_keys_insert,rfl,rfl⟩

theorem Grows.directoryExists {before after : MemoryHost} (grows : before.Grows after)
    (found : before.directoryExists path = true) : after.directoryExists path = true := by
  simp only [MemoryHost.directoryExists,grows.directories,Bool.or_eq_true,List.any_eq_true] at found ⊢
  refine found.imp_right ?_
  rintro ⟨file,member,inside⟩
  obtain ⟨file',member',same⟩ := List.mem_map.mp (grows.files file.1 (List.mem_map_of_mem member))
  exact ⟨file',member',same ▸ inside⟩

/-- Listing a directory that is there fails only if it is refused. -/
theorem list_refused {directory : Path} {fault : HostFault} (present : host.directoryExists directory = true)
    (failed : host.list directory = .error fault) : host.refusesListing = true := by
  rw [list,present] at failed
  split at failed
  next refuses => exact refuses
  · contradiction

/-- A listing has every file that it had. -/
theorem Grows.list {before after : MemoryHost} (grows : before.Grows after) {files : List Path}
    (listed : before.list path = .ok files) :
    ∃ files', after.list path = .ok files' ∧ ∀ file ∈ files, file ∈ files' := by
  rw [MemoryHost.list] at listed ⊢
  rw [grows.refusesListing]
  split at listed
  · contradiction
  next permitted =>
    split at listed
    next found =>
      cases listed
      rw [if_neg permitted,if_pos (grows.directoryExists found)]
      refine ⟨_,rfl,fun file member => ?_⟩
      obtain ⟨known,fits⟩ := List.mem_filter.mp member
      exact List.mem_filter.mpr ⟨grows.files file known,fits⟩
    · contradiction

/-- A listing has no file that it does not show. -/
theorem list_insert {directory : Path} {files : List Path} (apart : isLocaleFileOf directory path = false)
    (listed : host.list directory = .ok files) : (host.insert path content).list directory = .ok files := by
  rw [list] at listed
  split at listed
  · contradiction
  next permitted =>
    split at listed
    next found =>
      cases listed
      have present := (host.grows_insert path content).directoryExists found
      have same : host.refusesListing = (host.insert path content).refusesListing := rfl
      rw [list,← same,if_neg permitted,if_pos present]
      exact congrArg Except.ok (Sorted.filter_keys_insert apart)
    · contradiction

/-- A listing shows the locale files of the directory, in their order. -/
theorem filter_of_list {directory : Path} {files : List Path} (listed : host.list directory = .ok files) :
    (host.files.map (·.1)).filter (isLocaleFileOf directory) = files := by
  rw [list] at listed
  split at listed
  · contradiction
  · split at listed
    · exact Except.ok.inj listed
    · contradiction

theorem isLocaleFileOf_of_list {directory : Path} {files : List Path} (listed : host.list directory = .ok files)
    {file : Path} (member : file ∈ files) : isLocaleFileOf directory file = true := by
  rw [← filter_of_list listed] at member
  exact (List.mem_filter.mp member).2

/-- Nothing else is read differently. -/
theorem read?_insert (host : MemoryHost) (content : String) (apart : ¬other.same path = true) :
    (host.insert path content).read? other = host.read? other := by
  have file : (host.insert path content).file? other = host.file? other :=
    (file?_insert host path other content).trans (if_neg apart)
  rw [read?,file]
  rfl

/-- A host without its watches. -/
def store (host : MemoryHost) : MemoryHost :=
  {host with slots := [],opened := 0,closed := 0,watchBudget := none}

theorem list_store (host : MemoryHost) (path : Path) : host.store.list path = host.list path := rfl
theorem read?_store (host : MemoryHost) (path : Path) : host.store.read? path = host.read? path := rfl
theorem file?_store (host : MemoryHost) (path : Path) : host.store.file? path = host.file? path := rfl

theorem Grows.of_store {before after : MemoryHost} (same : after.store = before.store) : before.Grows after := by
  have files : after.store.files = before.store.files := by rw [same]
  have directories : after.store.directories = before.store.directories := by rw [same]
  have refusesListing : after.store.refusesListing = before.store.refusesListing := by rw [same]
  exact ⟨fun path member => files ▸ member,directories,refusesListing⟩

theorem store_prune (host : MemoryHost) : host.prune.store = host.store := rfl

theorem store_watch (opens : Host.watch path subscriber host = .ok (id,state)) : state.store = host.store := by
  change host.watch path subscriber = .ok (id,state) at opens
  rw [watch] at opens
  split at opens
  · contradiction
  · split at opens
    · contradiction
    · cases opens; rfl

theorem store_close (host : MemoryHost) (id : WatchId) : (host.close id).store = host.store := by
  rw [close]
  split <;> rfl

end MemoryHost

namespace World

section Watching

variable {P : World MemoryHost → Prop} {w : World MemoryHost} {owner : Subscriber} {h : Nat}
  (closes : ∀ {v} handle, P v → P (v.close handle))
  (sets : ∀ {v} handles, P v → P (v.setWatches owner handles))
  (opens : ∀ {v file id state}, Host.watch file owner (v.host h) = .ok (id,state) → P v →
    P ((v.setHost h state).record (.opened file)))

include closes

theorem closeAll_keeps (handles : List Handle) (holds : P w) : P (w.closeAll handles) := by
  induction handles generalizing w with
  | nil => exact holds
  | cons handle rest ih => exact ih (closes handle holds)

include sets

theorem unwatch_keeps (holds : P w) : P (w.unwatch owner) := sets [] (closeAll_keeps closes _ holds)

include opens

/-- What neither closing nor opening a watch changes, nor taking note of the open ones, is not changed by
replacing a watch set. -/
theorem rewatch_keeps (files : List Path) (holds : P w) : P (w.rewatch owner h files).2 := by
  have opened {w : World MemoryHost} (held : List Handle) (holds : P w) : P (openAll owner h files held w).2 := by
    induction files generalizing held w with
    | nil => exact holds
    | cons file files ih =>
      rw [openAll]
      split
      next opening => exact ih _ (opens opening holds)
      · exact closeAll_keeps closes held holds
  have closed := opened [] (unwatch_keeps closes sets holds)
  rcases w.rewatch_eq owner h files with same | ⟨handles,same⟩
  · exact same ▸ closed
  · exact same ▸ sets handles closed

end Watching

variable (w : World MemoryHost) (g h : Nat) (owner : Subscriber)

theorem store_close (handle : Handle) : ((w.close handle).host g).store = (w.host g).store := by
  rw [close,host_record,host_setHost]
  split
  next here => rw [← here]; exact MemoryHost.store_close _ _
  · rfl

theorem store_unwatch : ((w.unwatch owner).host g).store = (w.host g).store :=
  unwatch_keeps (P := fun v => (v.host g).store = (w.host g).store)
    (fun handle same => (store_close _ g handle).trans same) (fun _ same => by rwa [host_setWatches]) rfl

/-- Watches come and go without a trace in what is stored. -/
theorem store_rewatch (files : List Path) : ((w.rewatch owner h files).2.host g).store = (w.host g).store := by
  refine rewatch_keeps (P := fun v => (v.host g).store = (w.host g).store)
    (fun handle same => (store_close _ g handle).trans same) (fun _ same => by rwa [host_setWatches]) ?_ files rfl
  intro v file id state opens same
  rw [host_record,host_setHost]
  split
  next here => rw [← same,← here]; exact MemoryHost.store_watch opens
  · exact same

theorem hooks_unwatch : (w.unwatch owner).hooks = w.hooks :=
  unwatch_keeps (P := fun v => v.hooks = w.hooks) (fun _ => id) (fun _ same => by cases owner <;> exact same) rfl

theorem hooks_rewatch (files : List Path) : (w.rewatch owner h files).2.hooks = w.hooks :=
  rewatch_keeps (P := fun v => v.hooks = w.hooks) (fun _ => id) (fun _ same => by cases owner <;> exact same)
    (fun _ => id) files rfl

theorem holds_unwatch : (w.unwatch owner).holds = w.holds :=
  unwatch_keeps (P := fun v => v.holds = w.holds) (fun _ => id) (fun _ same => by cases owner <;> exact same) rfl

theorem holds_rewatch (files : List Path) : (w.rewatch owner h files).2.holds = w.holds :=
  rewatch_keeps (P := fun v => v.holds = w.holds) (fun _ => id) (fun _ same => by cases owner <;> exact same)
    (fun _ => id) files rfl

/-- A session may get or lose watches, and keeps all else. -/
theorem session_of_unwatch (t : Nat) :
    ∃ handles, (w.unwatch owner).session t = {w.session t with watches := handles} := by
  rw [session_unwatch]
  split
  · exact ⟨[],rfl⟩
  · exact ⟨_,rfl⟩

theorem session_of_release (s t : Nat) :
    ∃ handles, (w.release s).session t = {w.session t with watches := handles} := by
  unfold release
  split
  · exact session_of_unwatch w _ t
  · exact ⟨_,rfl⟩

theorem session_of_rewatch (files : List Path) (t : Nat) :
    ∃ handles, (w.rewatch owner h files).2.session t = {w.session t with watches := handles} := by
  obtain ⟨before,closed⟩ := session_of_unwatch w owner t
  rcases w.rewatch_eq owner h files with same | ⟨handles,same⟩
  · exact ⟨before,by rw [same,session_openAll,closed]⟩
  · rw [same,session_setWatches,session_openAll,closed]
    split
    · exact ⟨handles,rfl⟩
    · exact ⟨before,rfl⟩

end World
end Phrasebook
