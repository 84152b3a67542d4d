import Phrasebook.Proofs.Path.Spelling

/-! Joining a directory and a name adds one component to those of the directory, whether or not the directory ends
in a slash: `components_join`. -/
namespace Phrasebook

namespace Text

/-- A separator parts a text in two that are cut on their own. -/
theorem pieces_append_sep {α : Type} [DecidableEq α] (sep : α) (before after : List α) :
    pieces sep (before ++ sep :: after) = pieces sep before ++ pieces sep after := by
  induction before with
  | nil => simp [pieces]
  | cons c rest ih =>
    by_cases marks : c = sep
    · simp [pieces,marks,ih]
    · cases cut : pieces sep rest with
      | nil => exact absurd cut (pieces_ne_nil sep rest)
      | cons first more => simp [pieces,marks,ih,cut]

end Text

namespace Path

/-- Only two empty paths make an empty one. -/
theorem octets_join_eq_nil {base tail : Path} : (base.join tail).octets = [] ↔ base.octets = [] ∧ tail.octets = [] := by
  rw [join]
  split
  next absolute =>
    have filled : ¬tail.octets = [] := by
      intro blank
      obtain rfl : tail = ⟨[]⟩ := congrArg Path.mk blank
      cases absolute
    exact iff_of_false filled (fun both => filled both.2)
  · split
    · exact List.append_eq_nil_iff
    next open_ =>
      have filled : ¬base.octets = [] := by
        intro blank
        simp [isEmpty,blank] at open_
      exact iff_of_false (by simp) (fun both => filled both.1)

/-- Texts are joined to a text. -/
theorem isSome_text?_join {base tail : Path} (textual : base.text?.isSome) (textual' : tail.text?.isSome) :
    (base.join tail).text?.isSome := by
  obtain ⟨front,rfl⟩ := isSome_text?_iff.mp textual
  obtain ⟨back,rfl⟩ := isSome_text?_iff.mp textual'
  rw [join]
  split
  · exact textual'
  · split
    · exact isSome_text?_iff.mpr ⟨front ++ back,by rw [Text.octets_append]⟩
    · exact isSome_text?_iff.mpr ⟨front ++ "/" ++ back,by rw [Text.octets_append,Text.octets_append,List.append_assoc]; rfl⟩

/-- What the first piece of a path stands for. -/
def head (piece : Octets) : List Component :=
  if piece = [] then [.root] else if piece = [dot] then [.here] else (Component.ofPiece? piece).toList

/-- The components of a path that is cut into these pieces and is not empty. -/
def walk : List Octets → List Component
  | [] => []
  | first :: rest => head first ++ rest.filterMap Component.ofPiece?

theorem walk_concat {front : List Octets} (some : front ≠ []) (piece : Octets) :
    walk (front ++ [piece]) = walk front ++ (Component.ofPiece? piece).toList := by
  have last : [piece].filterMap Component.ofPiece? = (Component.ofPiece? piece).toList := by
    cases named : Component.ofPiece? piece <;> simp [named]
  obtain ⟨first,rest,rfl⟩ := List.exists_cons_of_ne_nil some
  rw [List.cons_append,walk,walk,List.filterMap_append,last,List.append_assoc]

theorem components_eq_walk {path : Path} (filled : path.octets ≠ []) :
    path.components = walk (Text.pieces slash path.octets) := by
  have whole := Text.joined_pieces slash path.octets
  obtain ⟨first,rest,pieces⟩ := List.exists_cons_of_ne_nil (Text.pieces_ne_nil slash path.octets)
  rw [pieces] at whole ⊢
  by_cases named : first = []
  · subst named
    cases rest with
    | nil => exact absurd whole.symm filled
    | cons next more =>
      rw [components,cut,pieces]
      rfl
  · rw [components,cut_of_pieces pieces named,walk,head,if_neg named]
    split
    · rfl
    · cases step : Component.ofPiece? first <;> simp [Lead.components,step]

variable {name : Octets}

/-- A name is a path of its own. -/
theorem components_name (free : slash ∉ name) (proper : ¬Component.idle name = true) :
    (Path.mk name).components = (Component.ofPiece? name).toList := by
  obtain ⟨filled,lone⟩ : name ≠ [] ∧ name ≠ [dot] := by simpa [Component.idle] using proper
  rw [components_eq_walk filled,Text.pieces_eq_self free,walk,head,if_neg filled,if_neg lone,List.filterMap_nil,
    List.append_nil]

/-- What stands before the last slash of a path that does not end there says the components before the last. -/
theorem components_of_split {path : Path} {front : Octets} (split : path.octets = front ++ slash :: name)
    (free : slash ∉ name) :
    path.components = walk (Text.pieces slash front) ++ (Component.ofPiece? name).toList := by
  have filled : path.octets ≠ [] := by simp [split]
  rw [components_eq_walk filled,split,Text.pieces_append_sep,Text.pieces_eq_self free,
    walk_concat (Text.pieces_ne_nil slash front)]

/-- A slash at the end of the directory makes no difference. -/
theorem components_join (directory : Path) (free : slash ∉ name) (proper : ¬Component.idle name = true) :
    (directory.join ⟨name⟩).components = directory.components ++ (Component.ofPiece? name).toList := by
  obtain ⟨filled,lone⟩ : name ≠ [] ∧ name ≠ [dot] := by simpa [Component.idle] using proper
  have relative : ¬(Path.mk name).isAbsolute = true := by
    rw [isAbsolute,cut_of_pieces (Text.pieces_eq_self free) filled,if_neg lone]
    simp
  rw [join,if_neg relative]
  by_cases blank : directory.octets = []
  · obtain rfl : directory = ⟨[]⟩ := congrArg Path.mk blank
    have none : (Path.mk []).components = [] := by decide
    rw [if_pos (by simp [isEmpty]),List.nil_append,components_name free proper,none,List.nil_append]
  by_cases ended : directory.octets.getLast? = some slash
  · obtain ⟨front,ends⟩ := List.getLast?_eq_some_iff.mp ended
    have nothing : Component.ofPiece? [] = none := by decide
    have bare : directory.components = walk (Text.pieces slash front) ++ (Component.ofPiece? []).toList :=
      components_of_split ends List.not_mem_nil
    have whole : directory.octets ++ name = front ++ slash :: name := by simp [ends]
    rw [if_pos (by simp [ended]),components_of_split whole free,bare,nothing,Option.toList_none,List.append_nil]
  · rw [if_neg (by simp [isEmpty,blank,ended]),components_of_split rfl free,components_eq_walk blank]

end Path
end Phrasebook
