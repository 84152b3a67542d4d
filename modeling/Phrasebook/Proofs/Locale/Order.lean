import Phrasebook.Locale.Reader

/-! Trees that come about by insertion have the keys of every level in order, each once: `Tree.Ordered.insert`.
So has whatever is read from the text of a locale file: `Tree.ordered_of_ofText`. -/
namespace Phrasebook.Locale
open Std

theorem ne_of_compare_lt {low high : String} (less : compare low high = .lt) : low ≠ high := by
  rintro rfl
  rw [ReflOrd.compare_self] at less
  cases less

theorem ne_of_compare_gt {high low : String} (greater : compare high low = .gt) : high ≠ low :=
  (ne_of_compare_lt (OrientedCmp.lt_of_gt greater)).symm

namespace Tree

/-- The first key of the level, if any, comes after this one. -/
def After (key : String) : Tree → Prop
  | .empty => True
  | .message k _ _ => compare key k = .lt
  | .group k _ _ => compare key k = .lt

/-- On every level the keys ascend. -/
def Ordered : Tree → Prop
  | .empty => True
  | .message key _ rest => rest.After key ∧ rest.Ordered
  | .group key inner rest => rest.After key ∧ inner.Ordered ∧ rest.Ordered

end Tree

def Node.Ordered : Node → Prop
  | .message _ => True
  | .group tree => tree.Ordered

namespace Tree

variable {tree : Tree} {node : Node} {key low : String}

theorem After.trans (less : compare low key = .lt) (after : tree.After key) : tree.After low := by
  cases tree with
  | empty => trivial
  | message => exact TransCmp.lt_trans less after
  | group => exact TransCmp.lt_trans less after

theorem get?_of_after (ordered : tree.Ordered) (after : tree.After key) : tree.get? key = none := by
  induction tree with
  | empty => rfl
  | message k text rest ih =>
    rw [get?,if_neg (ne_of_compare_lt after)]
    exact ih ordered.2 (ordered.1.trans after)
  | group k inner rest _ ih =>
    rw [get?,if_neg (ne_of_compare_lt after)]
    exact ih ordered.2.2 (ordered.1.trans after)

theorem Ordered.put (ordered : tree.Ordered) (below : node.Ordered) (after : tree.After key) :
    (tree.put key node).Ordered := by
  cases node with
  | message text => exact ⟨after,ordered⟩
  | group inner => exact ⟨after,below,ordered⟩

theorem after_put (less : compare low key = .lt) : (tree.put key node).After low := by
  cases node <;> exact less

theorem After.insert (less : compare low key = .lt) (after : tree.After low) : (tree.insert key node).After low := by
  cases tree with
  | empty => exact after_put less
  | message k text rest =>
    rw [Tree.insert]
    split
    · exact after_put less
    · exact after_put less
    · exact after
  | group k inner rest =>
    rw [Tree.insert]
    split
    · exact after_put less
    · exact after_put less
    · exact after

/-- Insertion keeps the order, also where it replaces a node. -/
theorem Ordered.insert (ordered : tree.Ordered) (below : node.Ordered) : (tree.insert key node).Ordered := by
  induction tree with
  | empty => exact ordered.put below trivial
  | message k text rest ih =>
    rw [Tree.insert]
    split
    next less => exact ordered.put below less
    next same =>
      obtain rfl := LawfulEqOrd.compare_eq_iff_eq.mp same
      exact ordered.2.put below ordered.1
    next greater => exact ⟨ordered.1.insert (OrientedCmp.lt_of_gt greater),ih ordered.2⟩
  | group k inner rest _ ih =>
    rw [Tree.insert]
    split
    next less => exact ordered.put below less
    next same =>
      obtain rfl := LawfulEqOrd.compare_eq_iff_eq.mp same
      exact ordered.2.2.put below ordered.1
    next greater => exact ⟨ordered.1.insert (OrientedCmp.lt_of_gt greater),ordered.2.1,ih ordered.2.2⟩

end Tree

mutual

theorem ordered_of_node {path : String} {value : Yaml.Value} {found : Node} (read : node path value = .ok found) :
    found.Ordered := by
  cases value with
  | null | bool | number | string => cases read; trivial
  | sequence => cases read
  | tagged tag value =>
    rw [node] at read
    exact ordered_of_node read
  | mapping entries =>
    rw [node] at read
    cases grouped : group path .empty entries with
    | error fault => simp [grouped,Except.map] at read
    | ok tree =>
      have start : Tree.empty.Ordered := trivial
      rw [grouped] at read
      cases read
      exact ordered_of_group start grouped

theorem ordered_of_group {path : String} {tree found : Tree} {entries : List (Yaml.Value × Yaml.Value)}
    (ordered : tree.Ordered) (read : group path tree entries = .ok found) : found.Ordered := by
  cases entries with
  | nil => cases read; exact ordered
  | cons entry rest =>
    obtain ⟨key,value⟩ := entry
    rw [group] at read
    split at read
    · cases read
    next key _ =>
      cases child : node (childPath path key) value with
      | error fault => simp [child,bind,Except.bind] at read
      | ok child' =>
        rw [child] at read
        exact ordered_of_group (ordered.insert (ordered_of_node child)) read

end

theorem Tree.ordered_of_ofText {text : String} {tree : Tree} (read : Tree.ofText text = .ok tree) : tree.Ordered := by
  have ofValue {value : Yaml.Value} (read : Tree.ofValue value = .ok tree) : tree.Ordered := by
    rw [Tree.ofValue.eq_def] at read
    split at read
    · cases read; trivial
    · split at read
      · cases found : node "" value with
        | error fault => simp [found,bind,Except.bind] at read
        | ok found' =>
          have ordered := ordered_of_node found
          simp only [found,bind,Except.bind] at read
          split at read
          · cases read; exact ordered
          · cases read
      · cases read
  rw [Tree.ofText] at read
  split at read
  · cases read
  · exact ofValue read

end Phrasebook.Locale
