import Phrasebook.Project.Unknown
import Phrasebook.Proofs.Text.Distance

/-! What is suggested for an unknown key: of the known keys that two edits turn it into, the first of the nearest
ones. The distances are least numbers of edits: `suggestion_nearest`. -/
namespace Phrasebook.Project.Unknown

/-- The first of the words that are nearest to the key. -/
def FirstNearest (key found : String) (words : List String) : Prop :=
  ∃ before after, words = before ++ found :: after ∧ (∀ word ∈ before, distanceTo key found < distanceTo key word) ∧
    ∀ word ∈ after, distanceTo key found ≤ distanceTo key word

variable {key found : String} {words : List String}

theorem FirstNearest.le (first : FirstNearest key found words) {word : String} (member : word ∈ words) :
    distanceTo key found ≤ distanceTo key word := by
  obtain ⟨before,after,rfl,nearer,near⟩ := first
  rcases List.mem_append.mp member with early | late
  · exact (nearer word early).le
  · rcases List.mem_cons.mp late with rfl | later
    · exact le_rfl
    · exact near word later

theorem FirstNearest.mem (first : FirstNearest key found words) : found ∈ words := by
  obtain ⟨before,after,rfl,-⟩ := first
  simp

theorem firstNearest_cons_iff {known : String} : FirstNearest key found (known :: words) ↔
    (found = known ∧ ∀ word ∈ words, distanceTo key known ≤ distanceTo key word) ∨
    (distanceTo key found < distanceTo key known ∧ FirstNearest key found words) := by
  constructor
  · rintro ⟨before,after,split,nearer,near⟩
    cases before with
    | nil =>
      cases split
      exact .inl ⟨rfl,near⟩
    | cons first before =>
      cases split
      obtain ⟨here,later⟩ := List.forall_mem_cons.mp nearer
      exact .inr ⟨here,before,after,rfl,later,near⟩
  · rintro (⟨rfl,near⟩ | ⟨here,before,after,rfl,nearer,near⟩)
    · exact ⟨[],words,rfl,by simp,near⟩
    · exact ⟨known :: before,after,rfl,List.forall_mem_cons.mpr ⟨here,nearer⟩,near⟩

theorem FirstNearest.unique {other : String} (first : FirstNearest key found words) (second : FirstNearest key other words) :
    found = other := by
  induction words with
  | nil => exact absurd first.mem List.not_mem_nil
  | cons known rest ih =>
    rcases firstNearest_cons_iff.mp first with ⟨rfl,near⟩ | ⟨here,first'⟩ <;>
      rcases firstNearest_cons_iff.mp second with ⟨rfl,near'⟩ | ⟨here',second'⟩
    · rfl
    · exact absurd here' (near other second'.mem).not_gt
    · exact absurd here (near' found first'.mem).not_gt
    · exact ih first' second'

/-- The search finds the first of the nearest words, and its distance. -/
theorem nearest_first (key : String) (some : words ≠ []) :
    ∃ found, nearest key words = Option.some (found,distanceTo key found) ∧ FirstNearest key found words := by
  induction words with
  | nil => exact absurd rfl some
  | cons known rest ih =>
    cases rest with
    | nil => exact ⟨known,rfl,firstNearest_cons_iff.mpr (.inl ⟨rfl,by simp⟩)⟩
    | cons next more =>
      obtain ⟨other,search,first⟩ := ih (List.cons_ne_nil next more)
      by_cases closer : distanceTo key other < distanceTo key known
      · refine ⟨other,?_,firstNearest_cons_iff.mpr (.inr ⟨closer,first⟩)⟩
        rw [nearest,search]
        exact if_pos closer
      · refine ⟨known,?_,firstNearest_cons_iff.mpr (.inl ⟨rfl,fun word member => ?_⟩)⟩
        · rw [nearest,search]
          exact if_neg closer
        · exact (Nat.le_of_not_lt closer).trans (first.le member)

theorem suggest?_eq_some_iff :
    suggest? key = some found ↔ distanceTo key found ≤ 2 ∧ FirstNearest key found knownKeys := by
  obtain ⟨best,search,first⟩ := nearest_first key (show knownKeys ≠ [] by decide)
  rw [suggest?,search]
  constructor
  · intro suggested
    obtain ⟨entry,kept,rfl⟩ := Option.map_eq_some_iff.mp suggested
    obtain ⟨same,close⟩ := Option.filter_eq_some_iff.mp kept
    cases same
    exact ⟨of_decide_eq_true close,first⟩
  · rintro ⟨close,first'⟩
    obtain rfl := first.unique first'
    simp [close]

/-- The distance of two keys is the least number of octets to put in, take out or replace. A key is suggested if any
known key is at most two such edits away, and then the first of the nearest ones. -/
theorem suggestion_nearest :
    (∀ key known : String, IsLeast {n | Text.Turns n (Text.octets key) (Text.octets known)} (distanceTo key known)) ∧
    ∀ key : String,
      ((suggest? key).isSome ↔ ∃ known ∈ knownKeys, ∃ n ≤ 2, Text.Turns n (Text.octets key) (Text.octets known)) ∧
      ∀ found, suggest? key = some found ↔ distanceTo key found ≤ 2 ∧ FirstNearest key found knownKeys := by
  have least (key known : String) :
      IsLeast {n | Text.Turns n (Text.octets key) (Text.octets known)} (distanceTo key known) :=
    Text.isLeast_distance _ _
  refine ⟨least,fun key => ⟨?_,fun found => suggest?_eq_some_iff⟩⟩
  rw [Option.isSome_iff_exists]
  constructor
  · rintro ⟨found,suggested⟩
    obtain ⟨close,first⟩ := suggest?_eq_some_iff.mp suggested
    exact ⟨found,first.mem,_,close,(least key found).1⟩
  · rintro ⟨known,member,n,few,turns⟩
    obtain ⟨best,-,first⟩ := nearest_first key (show knownKeys ≠ [] by decide)
    have close : distanceTo key best ≤ 2 :=
      calc distanceTo key best ≤ distanceTo key known := first.le member
        _ ≤ n := (least key known).2 turns
        _ ≤ 2 := few
    exact ⟨best,suggest?_eq_some_iff.mpr ⟨close,first⟩⟩

end Phrasebook.Project.Unknown
