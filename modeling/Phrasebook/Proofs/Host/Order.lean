import Phrasebook.Proofs.Host.Files
import Phrasebook.Session.Scripted

/-! A host in memory keeps its files in the order of their paths, each path once: `Tidy` is kept by
everything that happens to a host. So no two files of a listing have spellings of one path: `list_apart`. -/
namespace Phrasebook
open Std

instance : TransOrd Component :=
  inferInstanceAs (TransCmp (compareLex (compareOn Component.rank) (compareOn Component.label)))

instance : TransOrd Path where
  eq_swap {a b} := OrientedOrd.eq_swap (α := List Component) (a := a.components) (b := b.components)
  isLE_trans {a b c} := TransOrd.isLE_trans (α := List Component) (a := a.components) (b := b.components)
    (c := c.components)

namespace Sorted

variable {κ ν : Type} [Ord κ] {key : κ} {value : ν} {entries : List (κ × ν)}

/-- The keys grow from entry to entry. -/
def Increasing (entries : List (κ × ν)) : Prop := entries.Pairwise fun a b => compare a.1 b.1 = .lt

theorem key_of_mem_insert {entry : κ × ν} (member : entry ∈ insert key value entries) :
    entry.1 = key ∨ ∃ old ∈ entries, old.1 = entry.1 := by
  induction entries with
  | nil => exact .inl (congrArg Prod.fst (List.mem_singleton.mp member))
  | cons first rest ih =>
    obtain ⟨k,old⟩ := first
    rw [insert] at member
    split at member
    · rcases List.mem_cons.mp member with rfl | known
      · exact .inl rfl
      · exact .inr ⟨entry,known,rfl⟩
    · rcases List.mem_cons.mp member with rfl | known
      · exact .inr ⟨(k,old),List.mem_cons_self,rfl⟩
      · exact .inr ⟨entry,List.mem_cons_of_mem _ known,rfl⟩
    · rcases List.mem_cons.mp member with rfl | later
      · exact .inr ⟨(k,old),List.mem_cons_self,rfl⟩
      · refine (ih later).imp_right ?_
        rintro ⟨known,member,same⟩
        exact ⟨known,List.mem_cons_of_mem _ member,same⟩

theorem increasing_insert [TransOrd κ] (increasing : Increasing entries) :
    Increasing (insert key value entries) := by
  induction entries with
  | nil => exact List.pairwise_singleton _ _
  | cons first rest ih =>
    obtain ⟨k,old⟩ := first
    obtain ⟨least,others⟩ := List.pairwise_cons.mp increasing
    rw [insert]
    split
    next before =>
      refine List.pairwise_cons.mpr ⟨fun entry member => ?_,increasing⟩
      rcases List.mem_cons.mp member with rfl | later
      · exact before
      · exact TransCmp.lt_trans before (least entry later)
    · exact List.pairwise_cons.mpr ⟨least,others⟩
    next after =>
      refine List.pairwise_cons.mpr ⟨fun entry member => ?_,ih others⟩
      rcases key_of_mem_insert member with new | ⟨known,member,same⟩
      · exact new ▸ OrientedCmp.gt_iff_lt.mp after
      · exact same ▸ least known member

end Sorted

namespace MemoryHost

variable {host state : MemoryHost} {path : Path} {content : String} {files : List Path}

def Tidy (host : MemoryHost) : Prop := Sorted.Increasing host.files

theorem Tidy.of_store (tidy : host.Tidy) (same : state.store = host.store) : state.Tidy := by
  have files : state.store.files = host.store.files := congrArg MemoryHost.files same
  change Sorted.Increasing state.store.files
  rw [files]
  exact tidy

theorem Tidy.insert (tidy : host.Tidy) : (host.insert path content).Tidy := Sorted.increasing_insert tidy

theorem Tidy.write (tidy : host.Tidy) (written : host.write path content = .ok state) : state.Tidy := by
  rw [write_eq_ok written]
  exact Sorted.increasing_insert tidy

theorem Tidy.perform (tidy : host.Tidy) (command : HostCommand) : (host.perform command).2.Tidy := by
  cases command with
  | insert path content => exact tidy.insert
  | removeDirectory path => exact List.Pairwise.filter _ tidy
  | removeFile path => exact List.Pairwise.filter _ tidy
  | write path content =>
    simp only [MemoryHost.perform]
    split
    next written => exact tidy.write written
    · exact tidy
  | list path =>
    simp only [MemoryHost.perform]
    split <;> exact tidy
  | _ => exact tidy

theorem list_increasing (tidy : host.Tidy) (listed : host.list path = .ok files) :
    files.Pairwise fun a b => compare a b = .lt := by
  rw [← filter_of_list listed]
  exact List.Pairwise.filter _ (List.pairwise_map.mpr tidy)

/-- No file is listed twice, under whatever spelling. -/
theorem list_apart (tidy : host.Tidy) (listed : host.list path = .ok files) :
    files.Pairwise fun a b => ¬a.same b = true := by
  refine (list_increasing tidy listed).imp fun {a b} before same => ?_
  rw [Path.compare_eq_iff_same.mpr same] at before
  cases before

end MemoryHost
end Phrasebook
