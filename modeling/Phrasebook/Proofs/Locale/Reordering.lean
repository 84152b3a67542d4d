import Phrasebook.Proofs.Locale.Order
import Phrasebook.Proofs.Locale.Grammar

/-! The order of entries does not matter as long as no two keys of a mapping are printed alike: `node_reordered`. -/
namespace Phrasebook.Locale
open Std
open Yaml (Value Everywhere everywhere_mapping everywhere_tagged)

namespace Tree

/-- A tree is empty, or a node in front of a tree. -/
theorem put_induction {motive : Tree → Prop} (empty : motive .empty)
    (put : ∀ key node rest, motive rest → motive (put key node rest)) (tree : Tree) : motive tree := by
  induction tree with
  | empty => exact empty
  | message key text rest ih => exact put key (.message text) rest ih
  | group key inner rest _ ih => exact put key (.group inner) rest ih

variable {tree rest : Tree} {node : Node} {key low other : String}

theorem get?_put : (put key node rest).get? other = if other = key then some node else rest.get? other := by
  cases node <;> rfl

theorem after_put_iff : (put key node rest).After low ↔ compare low key = .lt := by
  cases node <;> rfl

theorem ordered_put_iff : (put key node rest).Ordered ↔ rest.After key ∧ node.Ordered ∧ rest.Ordered := by
  cases node with
  | message text => exact ⟨fun ordered => ⟨ordered.1,trivial,ordered.2⟩,fun ordered => ⟨ordered.1,ordered.2.2⟩⟩
  | group inner => exact Iff.rfl

theorem insert_put {k : String} {n : Node} : (put k n rest).insert key node =
    match compare key k with
    | .lt => put key node (put k n rest)
    | .eq => put key node rest
    | .gt => put k n (rest.insert key node) := by
  cases n <;> rfl

theorem get?_insert : (tree.insert key node).get? other = if other = key then some node else tree.get? other := by
  induction tree using put_induction with
  | empty => exact get?_put
  | put k n rest ih =>
    rw [insert_put]
    split
    next => rw [get?_put]
    next same =>
      obtain rfl := LawfulEqOrd.compare_eq_iff_eq.mp same
      rw [get?_put,get?_put]
      split <;> rfl
    next greater =>
      have differ := ne_of_compare_gt greater
      rw [get?_put,ih,get?_put]
      split
      next here =>
        rw [here,if_neg differ.symm]
      next => rfl

/-- Ordered trees with the same nodes are one. -/
theorem Ordered.ext {one two : Tree} (first : one.Ordered) (second : two.Ordered)
    (same : ∀ key, one.get? key = two.get? key) : one = two := by
  induction one using put_induction generalizing two with
  | empty =>
    induction two using put_induction with
    | empty => rfl
    | put k n rest _ =>
      have here := same k
      rw [get?_put,if_pos rfl] at here
      cases here
  | put k n rest ih =>
    obtain ⟨after,-,ordered⟩ := ordered_put_iff.mp first
    induction two using put_induction with
    | empty =>
      have here := same k
      rw [get?_put,if_pos rfl] at here
      cases here
    | put l m others _ =>
      obtain ⟨after',-,ordered'⟩ := ordered_put_iff.mp second
      have heads : k = l := by
        cases order : compare k l with
        | lt =>
          have here := same k
          rw [get?_put,if_pos rfl,get?_of_after second (after_put_iff.mpr order)] at here
          cases here
        | eq => exact LawfulEqOrd.compare_eq_iff_eq.mp order
        | gt =>
          have here := same l
          rw [get?_of_after first (after_put_iff.mpr (OrientedCmp.lt_of_gt order)),get?_put,if_pos rfl] at here
          cases here
      subst heads
      have nodes := same k
      rw [get?_put,if_pos rfl,get?_put,if_pos rfl] at nodes
      cases nodes
      rw [ih ordered ordered' fun key => ?_]
      by_cases here : key = k
      · rw [here,get?_of_after ordered after,get?_of_after ordered' after']
      · have there := same key
        rwa [get?_put,if_neg here,get?_put,if_neg here] at there

/-- Nodes with different keys are inserted in either order. -/
theorem insert_comm {a b : Node} {k l : String} (ordered : tree.Ordered) (one : a.Ordered) (two : b.Ordered)
    (differ : k ≠ l) : (tree.insert k a).insert l b = (tree.insert l b).insert k a := by
  refine ((ordered.insert one).insert two).ext ((ordered.insert two).insert one) fun key => ?_
  rw [get?_insert,get?_insert,get?_insert,get?_insert]
  by_cases here : key = l
  · rw [if_pos here,if_pos here,if_neg fun there => differ (there.symm.trans here)]
  · rw [if_neg here,if_neg here]

end Tree

/-- The entries of mappings in another order, at any depth. -/
inductive Reordered : Value → Value → Prop where
  | refl (value : Value) : Reordered value value
  | trans {one two three : Value} (first : Reordered one two) (second : Reordered two three) : Reordered one three
  | entries {one two : List (Value × Value)} (moved : one.Perm two) : Reordered (.mapping one) (.mapping two)
  | inside {value other : Value} (front : List (Value × Value)) (key : Value) (back : List (Value × Value))
      (below : Reordered value other) :
      Reordered (.mapping (front ++ (key,value) :: back)) (.mapping (front ++ (key,other) :: back))
  | tagged {value other : Value} (tag : String) (below : Reordered value other) :
      Reordered (.tagged tag value) (.tagged tag other)

/-- The keys of a mapping are printed apart. -/
def Apart (entries : List (Value × Value)) : Prop :=
  entries.Pairwise fun first later => keyText? first.1 ≠ keyText? later.1

theorem Apart.perm {one two : List (Value × Value)} (moved : one.Perm two) (apart : Apart one) : Apart two :=
  (moved.pairwise_iff fun {_ _} differ => Ne.symm differ).mp apart

theorem Apart.of_keys {one two : List (Value × Value)} (keys : one.map (·.1) = two.map (·.1)) (apart : Apart one) :
    Apart two := by
  have mapped : (one.map (·.1)).Pairwise fun first later => keyText? first ≠ keyText? later :=
    List.pairwise_map.mpr apart
  rw [keys] at mapped
  exact (List.pairwise_map (R := fun first later => keyText? first ≠ keyText? later)).mp mapped

section Group

variable {path : String} {tree found : Tree} {key value : Value} {entries others : List (Value × Value)}

/-- What reading a mapping does with an entry. -/
theorem group_cons_ok_iff : group path tree ((key,value) :: entries) = .ok found ↔
    ∃ text child, keyText? key = some text ∧ node (childPath path text) value = .ok child ∧
      group path (tree.insert text child) entries = .ok found := by
  rw [group]
  cases keyText? key with
  | none =>
    refine iff_of_false nofun ?_
    rintro ⟨_,_,printed,-⟩
    cases printed
  | some text =>
    change (node (childPath path text) value >>= fun child => group path (tree.insert text child) entries) =
      .ok found ↔ _
    cases read : node (childPath path text) value with
    | error fault =>
      refine iff_of_false nofun ?_
      rintro ⟨_,child,printed,reread,-⟩
      cases printed
      rw [read] at reread
      cases reread
    | ok child =>
      refine ⟨fun rest => ⟨text,child,rfl,read,rest⟩,?_⟩
      rintro ⟨_,child',printed,reread,rest⟩
      cases printed
      rw [read] at reread
      cases reread
      exact rest

theorem group_append_ok_iff : group path tree (entries ++ others) = .ok found ↔
    ∃ middle, group path tree entries = .ok middle ∧ group path middle others = .ok found := by
  induction entries generalizing tree with
  | nil =>
    refine ⟨fun rest => ⟨tree,rfl,rest⟩,?_⟩
    rintro ⟨middle,first,rest⟩
    cases first
    exact rest
  | cons entry entries ih =>
    obtain ⟨key,value⟩ := entry
    rw [List.cons_append,group_cons_ok_iff]
    constructor
    · rintro ⟨text,child,printed,read,rest⟩
      obtain ⟨middle,first,last⟩ := ih.mp rest
      exact ⟨middle,group_cons_ok_iff.mpr ⟨text,child,printed,read,first⟩,last⟩
    · rintro ⟨middle,first,last⟩
      obtain ⟨text,child,printed,read,first⟩ := group_cons_ok_iff.mp first
      exact ⟨text,child,printed,read,ih.mpr ⟨middle,first,last⟩⟩

/-- Entries with keys printed apart may be read in any order. -/
theorem group_perm (moved : entries.Perm others) (apart : Apart entries) (ordered : tree.Ordered)
    (read : group path tree entries = .ok found) : group path tree others = .ok found := by
  induction moved generalizing tree with
  | nil => exact read
  | cons entry moved ih =>
    obtain ⟨key,value⟩ := entry
    obtain ⟨text,child,printed,below,rest⟩ := group_cons_ok_iff.mp read
    have next := ih (List.pairwise_cons.mp apart).2 (ordered.insert (ordered_of_node below)) rest
    exact group_cons_ok_iff.mpr ⟨text,child,printed,below,next⟩
  | swap one two rest =>
    obtain ⟨text,child,printed,below,read⟩ := group_cons_ok_iff.mp read
    obtain ⟨text',child',printed',below',read⟩ := group_cons_ok_iff.mp read
    have differ : text ≠ text' := by
      intro same
      refine (List.pairwise_cons.mp apart).1 _ List.mem_cons_self ?_
      rw [printed,printed',same]
    rw [Tree.insert_comm ordered (ordered_of_node below) (ordered_of_node below') differ] at read
    exact group_cons_ok_iff.mpr ⟨text',child',printed',below',group_cons_ok_iff.mpr ⟨text,child,printed,below,read⟩⟩
  | trans first _ one two => exact two (apart.perm first) ordered (one apart ordered read)

end Group

/-- A value with keys printed apart is read alike in any order, and they are apart in any order. -/
theorem node_reordered {value other : Value} (moved : Reordered value other) (apart : Everywhere Apart value) :
    Everywhere Apart other ∧ ∀ path found, node path value = .ok found → node path other = .ok found := by
  induction moved with
  | refl value => exact ⟨apart,fun _ _ read => read⟩
  | trans _ _ one two =>
    obtain ⟨middle,first⟩ := one apart
    obtain ⟨last,second⟩ := two middle
    exact ⟨last,fun path found read => second path found (first path found read)⟩
  | tagged tag _ ih =>
    obtain ⟨below,same⟩ := ih (everywhere_tagged.mp apart)
    refine ⟨everywhere_tagged.mpr below,fun path found read => ?_⟩
    rw [node] at read ⊢
    exact same path found read
  | @entries one two moved =>
    obtain ⟨own,below⟩ := everywhere_mapping.mp apart
    refine ⟨everywhere_mapping.mpr ⟨own.perm moved,fun entry member => below entry (moved.mem_iff.mpr member)⟩,?_⟩
    intro path found read
    rw [node] at read ⊢
    cases grouped : group path .empty one with
    | error fault => rw [grouped] at read; cases read
    | ok tree =>
      have start : Tree.empty.Ordered := trivial
      rw [group_perm moved own start grouped]
      rw [grouped] at read
      exact read
  | @inside value other front key back _ ih =>
    obtain ⟨own,below⟩ := everywhere_mapping.mp apart
    obtain ⟨inner,same⟩ := ih (below (key,value) (List.mem_append_right _ List.mem_cons_self))
    constructor
    · refine everywhere_mapping.mpr ⟨own.of_keys (by simp),fun entry member => ?_⟩
      rcases List.mem_append.mp member with member | member
      · exact below entry (List.mem_append_left _ member)
      · rcases List.mem_cons.mp member with here | member
        · rw [here]
          exact inner
        · exact below entry (List.mem_append_right _ (List.mem_cons_of_mem _ member))
    · intro path found read
      rw [node] at read ⊢
      cases grouped : group path .empty (front ++ (key,value) :: back) with
      | error fault => rw [grouped] at read; cases read
      | ok tree =>
        obtain ⟨middle,first,rest⟩ := group_append_ok_iff.mp grouped
        obtain ⟨text,child,printed,read_below,last⟩ := group_cons_ok_iff.mp rest
        have regrouped : group path .empty (front ++ (key,other) :: back) = .ok tree :=
          group_append_ok_iff.mpr ⟨middle,first,group_cons_ok_iff.mpr ⟨text,child,printed,same _ _ read_below,last⟩⟩
        rw [grouped] at read
        rw [regrouped]
        exact read

theorem Reordered.null {value other : Value} (moved : Reordered value other) (empty : value = .null) : other = .null := by
  induction moved with
  | refl => exact empty
  | trans _ _ one two => exact two (one empty)
  | entries | inside | tagged => cases empty

/-- A tree is read from null, which has none, or from a value that is read as a group. -/
theorem Tree.ofValue_ok_iff {value : Value} {tree : Tree} : Tree.ofValue value = .ok tree ↔
    value = .null ∧ tree = .empty ∨ node "" value = .ok (.group tree) := by
  have collected (value : Value) : node "" value >>= Node.toTree = .ok tree ↔ node "" value = .ok (.group tree) := by
    cases node "" value with
    | error fault => exact iff_of_false nofun nofun
    | ok found =>
      cases found with
      | message text => exact iff_of_false nofun nofun
      | group inner => exact ⟨fun same => by cases same; rfl,fun same => by cases same; rfl⟩
  cases value with
  | null =>
    refine ⟨fun same => by cases same; exact .inl ⟨rfl,rfl⟩,?_⟩
    rintro (⟨-,rfl⟩ | read)
    · rfl
    · cases read
  | bool | number | string | sequence =>
    refine iff_of_false nofun ?_
    rintro (⟨null,-⟩ | read)
    · cases null
    · cases read
  | mapping entries =>
    rw [Tree.ofValue_eq rfl,collected]
    exact ⟨.inr,fun read => read.resolve_left nofun⟩
  | tagged tag value =>
    rw [Tree.ofValue_eq rfl,collected]
    exact ⟨.inr,fun read => read.resolve_left nofun⟩

/-- A locale with keys printed apart is the same in any order. -/
theorem Tree.ofValue_reordered {value other : Value} {tree : Tree} (moved : Reordered value other)
    (apart : Everywhere Apart value) (read : Tree.ofValue value = .ok tree) : Tree.ofValue other = .ok tree := by
  rcases Tree.ofValue_ok_iff.mp read with ⟨empty,none⟩ | grouped
  · exact Tree.ofValue_ok_iff.mpr (.inl ⟨moved.null empty,none⟩)
  · exact Tree.ofValue_ok_iff.mpr (.inr ((node_reordered moved apart).2 _ _ grouped))

end Phrasebook.Locale
