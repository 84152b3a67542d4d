import Phrasebook.Host.Memory

/-! Two spellings of a path have the same components, and nothing that is asked of a path tells them
apart: `compare_eq_iff_same`, `parent?_components`, `isLocaleFileOf_of_same`. -/
namespace Phrasebook
open Std

instance : LawfulEqOrd Component where
  compare_self {a} := by
    change compareLex (compareOn Component.rank) (compareOn Component.label) a a = .eq
    simp [compareLex,compareOn]
  eq_of_compare {a b} same := by
    change compareLex (compareOn Component.rank) (compareOn Component.label) a b = .eq at same
    simp only [compareLex,compareOn,Ordering.then_eq_eq,Std.compare_eq_iff_eq] at same
    obtain ⟨rank,label⟩ := same
    cases a <;> cases b <;> simp_all [Component.rank,Component.label]

theorem Component.ofPiece?_of_idle {piece : Octets} (idle : idle piece = true) : ofPiece? piece = none := by
  rw [ofPiece?,if_pos idle]

theorem Component.ofPiece?_of_not_idle {piece : Octets} (step : ¬idle piece = true) :
    ∃ component, ofPiece? piece = some component ∧ component ≠ root := by
  rw [ofPiece?,if_neg step]
  split
  · exact ⟨up,rfl,by simp⟩
  · exact ⟨name _,rfl,by simp⟩

namespace Path

variable {a b c : Path}

theorem same_iff : a.same b = true ↔ a.components = b.components := decide_eq_true_iff

theorem same_refl (a : Path) : a.same a = true := same_iff.mpr rfl

theorem same_comm : a.same b = b.same a := by simp [same,eq_comm]

theorem same_trans (first : a.same b = true) (next : b.same c = true) : a.same c = true :=
  same_iff.mpr ((same_iff.mp first).trans (same_iff.mp next))

theorem compare_eq_iff_same : compare a b = .eq ↔ a.same b = true := by
  rw [same_iff]
  change List.compareLex compare a.components b.components = .eq ↔ _
  exact ⟨LawfulEqCmp.eq_of_compare,fun same => same ▸ ReflCmp.compare_self⟩

/-- Idle pieces at the end of a path add nothing to it. -/
theorem filterMap_dropWhile_idle (pieces : List Octets) :
    (pieces.dropWhile Component.idle).reverse.filterMap Component.ofPiece? =
      pieces.reverse.filterMap Component.ofPiece? := by
  induction pieces with
  | nil => rfl
  | cons piece rest ih =>
    rw [List.dropWhile_cons]
    split
    next idle => rw [ih]; simp [Component.ofPiece?_of_idle idle]
    · rfl

/-- Pieces that can follow a lead: the first after none is a proper step. -/
structure Lead.Fits (lead : Lead) (steps : List Octets) : Prop where
  free : ∀ piece ∈ steps, slash ∉ piece
  first : lead = .bare → ∀ piece ∈ steps.head?, Component.idle piece = false

theorem cut_of_pieces {path : Path} {first : Octets} {rest : List Octets}
    (pieces : Text.pieces slash path.octets = first :: rest) (filled : first ≠ []) :
    path.cut = if first = [dot] then (.here,rest) else (.bare,first :: rest) := by
  obtain ⟨octet,more,rfl⟩ := List.exists_cons_of_ne_nil filled
  rw [cut,pieces]

theorem cut_fits (path : Path) : path.cut.1.Fits path.cut.2 := by
  have free := Text.pieces_free slash path.octets
  unfold cut
  split
  · exact ⟨by simp,by simp⟩
  next rest pieces =>
    rw [pieces] at free
    exact ⟨fun piece member => free piece (by simp [member]),by simp⟩
  next first rest _ rooted pieces =>
    rw [pieces] at free
    split
    next here => exact ⟨fun piece member => free piece (by simp [member]),by simp⟩
    next here =>
      refine ⟨free,fun _ piece head => ?_⟩
      obtain rfl : first = piece := by simpa using head
      have filled : first ≠ [] := by
        rintro rfl
        exact rooted rfl
      simp [Component.idle,filled,here]
  · exact ⟨by simp,by simp⟩

theorem components_assemble {lead : Lead} {steps : List Octets} (fits : lead.Fits steps) :
    (assemble lead steps).components = lead.components ++ steps.filterMap Component.ofPiece? := by
  cases steps with
  | nil =>
    cases lead <;> decide +kernel
  | cons first rest =>
    have pieces := Text.pieces_joined (List.cons_ne_nil first rest) fits.free
    cases lead with
    | bare =>
      have step := fits.first rfl first (by simp)
      have proper : first ≠ [] ∧ first ≠ [dot] := by simpa [Component.idle] using step
      rw [components,assemble,cut_of_pieces pieces proper.1,if_neg proper.2]
    | root =>
      rw [components,cut,assemble,Text.pieces,if_pos rfl,pieces]
    | here =>
      have lone : Text.pieces slash (dot :: slash :: Text.joined slash (first :: rest)) = [dot] :: first :: rest := by
        have apart : dot ≠ slash := by decide
        simp [Text.pieces,pieces,apart]
      rw [components,assemble,cut_of_pieces lone (by simp),if_pos rfl]
      simp

theorem Lead.Fits.of_prefix {lead : Lead} {front steps : List Octets} (fits : lead.Fits steps)
    (initial : front <+: steps) : lead.Fits front where
  free piece member := fits.free piece (initial.subset member)
  first bare piece first := by
    obtain ⟨back,rfl⟩ := initial
    refine fits.first bare piece ?_
    cases front with
    | nil => simp at first
    | cons head rest => simpa using first

/-- The components above the last; a root and the empty path have none. -/
def above : List Component → Option (List Component)
  | [] => none
  | [.root] => none
  | first :: rest => some (first :: rest).dropLast

theorem above_concat (before : List Component) {last : Component} (step : last ≠ .root) :
    above (before ++ [last]) = some before := by
  cases before with
  | nil => cases last <;> simp_all [above]
  | cons first rest =>
    have whole : (first :: rest ++ [last]).dropLast = first :: rest := List.dropLast_concat
    cases first <;> cases rest <;> exact congrArg some whole

theorem parent?_components (path : Path) : path.parent?.map components = above path.components := by
  have steps := filterMap_dropWhile_idle path.cut.2.reverse
  rw [List.reverse_reverse] at steps
  rw [parent?,components.eq_def path]
  split
  next last rest trimmed =>
    have proper : ¬Component.idle last = true := by
      have first := List.head?_dropWhile_not Component.idle path.cut.2.reverse
      simpa [trimmed] using first
    obtain ⟨component,named,step⟩ := Component.ofPiece?_of_not_idle proper
    have initial : (rest.dropWhile Component.idle).reverse <+: path.cut.2 := by
      have suffix : rest.dropWhile Component.idle <:+ path.cut.2.reverse := by
        refine (List.dropWhile_suffix _).trans ((List.suffix_cons last rest).trans ?_)
        rw [← trimmed]
        exact List.dropWhile_suffix _
      simpa using List.reverse_prefix.mpr suffix
    rw [trimmed,List.reverse_cons,List.filterMap_append] at steps
    rw [Option.map_some,components_assemble (path.cut_fits.of_prefix initial),filterMap_dropWhile_idle,← steps]
    rw [List.filterMap_cons_some named,List.filterMap_nil,← List.append_assoc,above_concat _ step]
  next trimmed =>
    rw [trimmed] at steps
    rw [← steps]
    cases path.cut.1 <;> decide +kernel

theorem parent?_of_same (same : a.same b = true) : a.parent?.map components = b.parent?.map components := by
  rw [parent?_components,parent?_components,same_iff.mp same]

theorem extension?_of_same (same : a.same b = true) : a.extension? = b.extension? := by
  rw [extension?,fileName?,extension?,fileName?,same_iff.mp same]

end Path

theorem MemoryHost.isLocaleFileOf_of_same {a b : Path} (directory : Path) (same : a.same b = true) :
    isLocaleFileOf directory a = isLocaleFileOf directory b := by
  have inside (path : Path) : path.parent?.any (·.same directory) =
      (path.parent?.map Path.components).any (· = directory.components) := by
    cases path.parent? <;> rfl
  rw [isLocaleFileOf,isLocaleFileOf,inside,inside,Path.parent?_of_same same,Locale.isFile,Locale.isFile,
    Path.extension?_of_same same]

end Phrasebook
