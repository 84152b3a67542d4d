import Mathlib.Data.List.Count
import Mathlib.Data.List.Sort
import Phrasebook.Proofs.Generation.Interface
import Phrasebook.Proofs.Locale.Order

/-! Merging keeps count, path by path, of the nodes that the locales have: `Tallies.ofEntries`. It fails only where
a message meets a group: `Tallies.meets_of_mergeAll`. -/
namespace Phrasebook
open Std

namespace Sorted

variable {key other : String} {keys : List String}

theorem pairwise_add (ascending : keys.Pairwise (compare · · = .lt)) :
    (add key keys).Pairwise (compare · · = .lt) := by
  induction keys with
  | nil => exact List.pairwise_singleton _ _
  | cons k rest ih =>
    obtain ⟨least,others⟩ := List.pairwise_cons.mp ascending
    rw [add]
    split
    next before =>
      refine List.pairwise_cons.mpr ⟨fun other member => ?_,ascending⟩
      rcases List.mem_cons.mp member with rfl | later
      · exact before
      · exact TransCmp.lt_trans before (least other later)
    · exact ascending
    next after =>
      refine List.pairwise_cons.mpr ⟨fun other member => ?_,ih others⟩
      rcases mem_add.mp member with rfl | known
      · exact OrientedCmp.lt_of_gt after
      · exact least other known

end Sorted

namespace Locale

/-- What is reached from a node by following keys. -/
def Node.below? : Node → List String → Option Node
  | node,[] => some node
  | .message _,_ :: _ => none
  | .group inner,key :: keys => inner.follow? (key :: keys)

/-- What is reached from a group with a single node, which stands under this key. -/
def Node.under? (first : String) (node : Node) : List String → Option Node
  | [] => none
  | key :: keys => if key = first then node.below? keys else none

def Node.isGroup : Node → Bool
  | .message _ => false
  | .group _ => true

/-- The placeholders of a message. -/
def Node.parameters : Node → List String
  | .message text => Message.parameters text
  | .group _ => []

namespace Tree

variable {tree inner rest : Tree} {node : Node} {key first text : String} {keys : List String}

theorem follow?_cons (tree : Tree) (key : String) (keys : List String) :
    tree.follow? (key :: keys) = (tree.get? key).bind (·.below? keys) := by
  cases keys with
  | nil => cases found : tree.get? key <;> simp [follow?,found,Node.below?]
  | cons next keys =>
    rw [follow?]
    · cases tree.get? key with
      | none => rfl
      | some node => cases node <;> rfl
    · simp

theorem follow?_of_after (ordered : tree.Ordered) (after : tree.After key) : tree.follow? (key :: keys) = none := by
  rw [follow?_cons,get?_of_after ordered after]
  rfl

theorem ne_of_follow? (ordered : tree.Ordered) (after : tree.After first)
    {found : Node} {keys : List String} (reached : found ∈ tree.follow? (key :: keys)) : key ≠ first := by
  rintro rfl
  simp [follow?_of_after ordered after] at reached

/-- Along each path there is the first node of the level to be found, or one of the others. -/
theorem follow?_put (node : Node) (ordered : (rest.put first node).Ordered) (key : String) (keys : List String) :
    ((rest.put first node).follow? (key :: keys)).toList =
      (node.under? first (key :: keys)).toList ++ (rest.follow? (key :: keys)).toList := by
  have later : rest.Ordered ∧ rest.After first := by
    cases node with
    | message text => exact ⟨ordered.2,ordered.1⟩
    | group inner => exact ⟨ordered.2.2,ordered.1⟩
  have front : (rest.put first node).get? key = if key = first then some node else rest.get? key := by
    cases node <;> rfl
  rw [follow?_cons,front,Node.under?]
  split
  next here =>
    rw [here,follow?_of_after later.1 later.2]
    simp
  next elsewhere =>
    rw [follow?_cons]
    simp

theorem mem_follow?_put (node : Node) (ordered : (rest.put first node).Ordered) {found : Node} {keys : List String} :
    found ∈ (rest.put first node).follow? (key :: keys) ↔
      found ∈ node.under? first (key :: keys) ∨ found ∈ rest.follow? (key :: keys) := by
  simp only [Option.mem_def,← Option.mem_toList,follow?_put node ordered,List.mem_append]

/-- A group stands at the path; at the empty one, the whole tree does. -/
def hasGroup (tree : Tree) (path : List String) : Bool :=
  path.isEmpty || (tree.follow? path).any Node.isGroup

/-- What stands below a path stands in the group there. -/
theorem hasGroup_of_follow? {path : List String} (found : (tree.follow? (path ++ [key])).isSome) :
    tree.hasGroup path = true := by
  induction path generalizing tree with
  | nil => rfl
  | cons first path ih =>
    rw [List.cons_append,follow?_cons] at found
    rw [hasGroup,follow?_cons]
    cases here : tree.get? first with
    | none => simp [here] at found
    | some node =>
      cases node with
      | message text => cases path <;> simp [here,Node.below?] at found
      | group inner =>
        cases path with
        | nil => rfl
        | cons next path =>
          have below := ih (by simpa [here,Node.below?] using found)
          simpa [hasGroup,Node.below?] using below

end Tree

/-- The nodes that the locales have at a path. -/
def nodesAt (entries : List Entry) (path : List String) : List Node := entries.filterMap (·.tree.follow? path)

end Locale

namespace Shape

open Phrasebook.Locale (Node Tree nodesAt)

/-- The field reached by following keys one by one. -/
def find? : List String → Shape → Option Field
  | [],_ => none
  | [key],shape => shape.get? key
  | key :: next :: keys,shape =>
    match shape.get? key with
    | some (.group _ inner) => find? (next :: keys) inner
    | _ => none

namespace Field

/-- What is reached from a field by following keys. -/
def below? : Field → List String → Option Field
  | field,[] => some field
  | .message _ _,_ :: _ => none
  | .group _ inner,keys => inner.find? keys

def count : Field → Nat
  | .message count _ => count
  | .group count _ => count

/-- The placeholders of a message; a group has none of its own. -/
def params? : Field → Option (List String)
  | .message _ params => some params
  | .group _ _ => none

def isGroup (field : Field) : Bool := field.params?.isNone

end Field

variable {shape shape' fields other : Shape} {key first text : String} {keys path names : List String}

theorem find?_cons (shape : Shape) (key : String) (keys : List String) :
    shape.find? (key :: keys) = (shape.get? key).bind (·.below? keys) := by
  cases keys with
  | nil => cases found : shape.get? key <;> simp [find?,found,Field.below?]
  | cons next keys =>
    rw [find?]
    cases shape.get? key with
    | none => rfl
    | some field => cases field <;> rfl

theorem Updated.find? {field : Field} (updated : Updated shape first field shape') :
    shape'.find? (key :: keys) = if key = first then field.below? keys else shape.find? (key :: keys) := by
  rw [find?_cons,updated.get?,find?_cons]
  split
  · rfl
  · rfl

theorem exists_group_of_addMessage? (ordered : shape.Ordered) (refused : shape.addMessage? key names = none) :
    ∃ count inner, shape.get? key = some (.group count inner) := by
  induction shape with
  | empty => cases refused
  | message k count params rest ih =>
    rw [addMessage?] at refused
    split at refused
    · cases refused
    · cases refused
    next greater =>
      rw [get?_message_of_gt greater]
      exact ih ordered.2 (Option.map_eq_none_iff.mp refused)
  | group k count inner rest _ ih =>
    rw [addMessage?] at refused
    split at refused
    · cases refused
    next same =>
      obtain rfl := LawfulEqOrd.compare_eq_iff_eq.mp same
      exact ⟨count,inner,if_pos rfl⟩
    next greater =>
      rw [get?_group_of_gt greater]
      exact ih ordered.2.2 (Option.map_eq_none_iff.mp refused)

theorem exists_message_of_inner? (refused : shape.inner? key = none) :
    ∃ count params, shape.get? key = some (.message count params) := by
  rw [inner?_eq] at refused
  split at refused
  · cases refused
  next count params stands => exact ⟨count,params,stands⟩
  · cases refused

/-- A field adds up the nodes that stand at one path in the locales that have one there. -/
inductive Sums : List Node → Option Field → Prop where
  | absent : Sums [] none
  | messages (texts : List String) (nonempty : texts ≠ []) :
      Sums (texts.map .message) (some (.message texts.length (collect [] (texts.flatMap Message.parameters))))
  | groups (inners : List Tree) (fields : Shape) (nonempty : inners ≠ []) :
      Sums (inners.map .group) (some (.group inners.length fields))

/-- At every path the field adds up the nodes there. -/
structure Tallies (shape : Shape) (nodes : List String → List Node) : Prop where
  ordered : shape.Ordered
  sums : ∀ key keys, Sums (nodes (key :: keys)) (shape.find? (key :: keys))

namespace Sums

variable {nodes : List Node} {field : Option Field} {node inner : Node}

theorem eq_nil (sums : Sums nodes none) : nodes = [] := by
  cases sums
  rfl

theorem exists_of_some {field : Field} (sums : Sums nodes (some field)) :
    ∃ node ∈ nodes, node.isGroup = field.isGroup := by
  cases sums with
  | messages texts nonempty =>
    obtain ⟨text,rest,rfl⟩ := List.exists_cons_of_ne_nil nonempty
    exact ⟨.message text,by simp,rfl⟩
  | groups inners fields nonempty =>
    obtain ⟨inner,rest,rfl⟩ := List.exists_cons_of_ne_nil nonempty
    exact ⟨.group inner,by simp,rfl⟩

theorem uniform (sums : Sums nodes field) : ∀ a ∈ nodes, ∀ b ∈ nodes, a.isGroup = b.isGroup := by
  cases sums with
  | absent => simp
  | messages | groups => simp [Node.isGroup]

theorem collect_append (params names more : List String) :
    collect (collect params names) more = collect params (names ++ more) := List.foldl_append.symm

/-- One more message. -/
theorem counted (sums : Sums nodes field) {counted : Field}
    (fits : counted ∈ Field.counted? (Message.parameters text) field) :
    Sums (nodes ++ [.message text]) (some counted) := by
  cases sums with
  | absent =>
    cases fits
    simpa using messages [text] (by simp)
  | messages texts nonempty =>
    cases fits
    simpa [collect_append] using messages (texts ++ [text]) (by simp)
  | groups => cases fits

/-- One more group, whatever becomes of its fields. -/
theorem regrouped (sums : Sums nodes field) (inner : Tree) (fields : Shape)
    (fits : ∀ count params, field ≠ some (.message count params)) :
    Sums (nodes ++ [.group inner]) (some (.regrouped fields field)) := by
  cases sums with
  | absent => simpa [Field.regrouped] using groups [inner] fields (by simp)
  | messages texts nonempty => exact absurd rfl (fits _ _)
  | groups inners old nonempty => simpa [Field.regrouped] using groups (inners ++ [inner]) fields (by simp)

end Sums

namespace Tallies

variable {nodes nodes' : List String → List Node} {tree inner : Tree}

theorem empty : Tallies .empty fun _ => [] := by
  refine ⟨trivial,fun key keys => ?_⟩
  rw [find?_cons]
  exact .absent

theorem congr (tallies : Tallies shape nodes) (same : ∀ key keys, nodes' (key :: keys) = nodes (key :: keys)) :
    Tallies shape nodes' := ⟨tallies.ordered,fun key keys => same key keys ▸ tallies.sums key keys⟩

/-- Below a message there is nothing, neither before nor after it has been counted. -/
theorem addMessage? (tallies : Tallies shape nodes)
    (added : shape.addMessage? first (Message.parameters text) = some shape') :
    Tallies shape' fun path => nodes path ++ ((Node.message text).under? first path).toList := by
  obtain ⟨field,counted,updated⟩ := addMessage?_updated tallies.ordered added
  refine ⟨updated.ordered,fun key keys => ?_⟩
  have before := tallies.sums key keys
  rw [updated.find?,Node.under?]
  split
  next here =>
    subst here
    cases keys with
    | nil => exact before.counted counted
    | cons next keys =>
      have nothing : shape.find? (key :: next :: keys) = none ∧ field.below? (next :: keys) = none := by
        rw [find?_cons]
        cases found : shape.get? key with
        | none => rw [found] at counted; cases counted; exact ⟨rfl,rfl⟩
        | some old =>
          rw [found] at counted
          cases old <;> cases counted
          exact ⟨rfl,rfl⟩
      rw [nothing.1] at before
      rw [nothing.2,before.eq_nil]
      exact .absent
  next => simpa using before

theorem inner? (tallies : Tallies shape nodes) (found : shape.inner? first = some fields) :
    Tallies fields fun path => nodes (first :: path) := by
  refine ⟨ordered_inner? tallies.ordered found,fun key keys => ?_⟩
  have before := tallies.sums first (key :: keys)
  have below : shape.find? (first :: key :: keys) = fields.find? (key :: keys) := by
    rw [inner?_eq] at found
    rw [find?_cons]
    cases stands : shape.get? first with
    | none => rw [stands] at found; cases found; rw [find?_cons]; rfl
    | some field =>
      rw [stands] at found
      cases field <;> cases found
      rfl
  exact below ▸ before

theorem putGroup (tallies : Tallies shape nodes) (found : shape.inner? first = some fields)
    (below : Tallies shape' fun path => nodes (first :: path) ++ (inner.follow? path).toList) :
    Tallies (putGroup first shape' shape) fun path => nodes path ++ ((Node.group inner).under? first path).toList := by
  have updated := putGroup_updated tallies.ordered below.ordered (fits_of_inner? found)
  refine ⟨updated.ordered,fun key keys => ?_⟩
  have before := tallies.sums key keys
  rw [updated.find?,Node.under?]
  split
  next here =>
    subst here
    cases keys with
    | nil => exact before.regrouped inner shape' (fits_of_inner? found)
    | cons next keys =>
      have inside : (Field.regrouped shape' (shape.get? key)).below? (next :: keys) = shape'.find? (next :: keys) := by
        cases shape.get? key with
        | none => rfl
        | some old => cases old <;> rfl
      rw [inside]
      exact below.sums next keys
  next => simpa using before

/-- The nodes of a whole tree are added to those before. -/
theorem merge {parent : String} (tallies : Tallies shape nodes) (ordered : tree.Ordered)
    (merged : merge parent shape tree = .ok shape') :
    Tallies shape' fun path => nodes path ++ (tree.follow? path).toList := by
  induction tree generalizing parent shape shape' nodes with
  | empty =>
    cases merged
    exact tallies.congr fun key keys => by rw [Tree.follow?_cons]; simp [Tree.get?]
  | message key text rest ih =>
    rw [Shape.merge] at merged
    split at merged
    next added step =>
      refine (ih (tallies.addMessage? step) ordered.2 merged).congr fun first keys => ?_
      rw [List.append_assoc]
      exact congrArg _ (Tree.follow?_put (.message text) ordered first keys)
    next => contradiction
  | group key inner rest ihInner ih =>
    rw [Shape.merge] at merged
    split at merged
    next => contradiction
    next fields found =>
      cases step : Shape.merge (Locale.childPath parent key) fields inner with
      | error clash =>
        rw [step] at merged
        cases merged
      | ok fields' =>
        rw [step] at merged
        have below := ihInner (tallies.inner? found) ordered.2.1 step
        refine (ih (tallies.putGroup found below) ordered.2.2 merged).congr fun first keys => ?_
        rw [List.append_assoc]
        exact congrArg _ (Tree.follow?_put (.group inner) ordered first keys)

/-- Merging fails only where a node of the tree meets one of the other kind. -/
theorem meets_of_merge {parent path : String} (tallies : Tallies shape nodes) (ordered : tree.Ordered)
    (failed : Shape.merge parent shape tree = .error path) :
    ∃ path, ∃ node ∈ tree.follow? path, ∃ other ∈ nodes path, node.isGroup ≠ other.isGroup := by
  suffices ∃ key keys, ∃ node ∈ tree.follow? (key :: keys), ∃ other ∈ nodes (key :: keys),
      node.isGroup ≠ other.isGroup by
    obtain ⟨key,keys,meets⟩ := this
    exact ⟨_,meets⟩
  induction tree generalizing parent path shape nodes with
  | empty => cases failed
  | message first text rest ih =>
    have front {found : Node} {key : String} {keys : List String} :
        found ∈ (Tree.message first text rest).follow? (key :: keys) ↔ _ :=
      Tree.mem_follow?_put (.message text) ordered
    rw [Shape.merge] at failed
    split at failed
    next added step =>
      obtain ⟨key,keys,node,found,other,member,differ⟩ := ih (tallies.addMessage? step) ordered.2 failed
      have elsewhere : key ≠ first := Tree.ne_of_follow? ordered.2 ordered.1 found
      have known : other ∈ nodes (key :: keys) := by simpa [Node.under?,elsewhere] using member
      exact ⟨key,keys,node,front.mpr (.inr found),other,known,differ⟩
    next refused =>
      obtain ⟨count,fields,stands⟩ := exists_group_of_addMessage? tallies.ordered refused
      have here := tallies.sums first []
      rw [find?_cons,stands] at here
      obtain ⟨other,member,kind⟩ := here.exists_of_some
      have here : Node.message text ∈ (Node.message text).under? first [first] := by simp [Node.under?,Node.below?]
      exact ⟨first,[],_,front.mpr (.inl here),other,member,kind ▸ Bool.false_ne_true⟩
  | group first inner rest ihInner ih =>
    have front {found : Node} {key : String} {keys : List String} :
        found ∈ (Tree.group first inner rest).follow? (key :: keys) ↔ _ :=
      Tree.mem_follow?_put (.group inner) ordered
    rw [Shape.merge] at failed
    split at failed
    next refused =>
      obtain ⟨count,params,stands⟩ := exists_message_of_inner? refused
      have here := tallies.sums first []
      rw [find?_cons,stands] at here
      obtain ⟨other,member,kind⟩ := here.exists_of_some
      have here : Node.group inner ∈ (Node.group inner).under? first [first] := by simp [Node.under?,Node.below?]
      exact ⟨first,[],_,front.mpr (.inl here),other,member,kind ▸ Bool.false_ne_true.symm⟩
    next fields found =>
      cases step : Shape.merge (Locale.childPath parent first) fields inner with
      | error clash =>
        obtain ⟨key,keys,node,inside,meets⟩ := ihInner (tallies.inner? found) ordered.2.1 step
        exact ⟨first,key :: keys,node,front.mpr (.inl (by simpa [Node.under?,Node.below?] using inside)),meets⟩
      | ok fields' =>
        rw [step] at failed
        have below := (tallies.inner? found).merge ordered.2.1 step
        obtain ⟨key,keys,node,inside,other,member,differ⟩ := ih (tallies.putGroup found below) ordered.2.2 failed
        have elsewhere : key ≠ first := Tree.ne_of_follow? ordered.2.2 ordered.1 inside
        have known : other ∈ nodes (key :: keys) := by simpa [Node.under?,elsewhere] using member
        exact ⟨key,keys,node,front.mpr (.inr inside),other,known,differ⟩

/-- Merging locales one after the other adds up the nodes of all of them. -/
theorem mergeAll {entries : List Locale.Entry} (tallies : Tallies shape nodes)
    (ordered : ∀ entry ∈ entries, entry.tree.Ordered) (merged : mergeAll shape entries = .ok shape') :
    Tallies shape' fun path => nodes path ++ nodesAt entries path := by
  induction entries generalizing shape nodes with
  | nil =>
    cases merged
    exact tallies.congr fun key keys => List.append_nil _
  | cons entry rest ih =>
    obtain ⟨first,others⟩ := List.forall_mem_cons.mp ordered
    rw [Shape.mergeAll] at merged
    split at merged
    next one step =>
      refine (ih (tallies.merge first step) others merged).congr fun key keys => ?_
      rw [List.append_assoc,nodesAt,List.filterMap_cons]
      cases entry.tree.follow? (key :: keys) <;> rfl
    next => contradiction

theorem meets_of_mergeAll {entries : List Locale.Entry} {clash : Clash} (tallies : Tallies shape nodes)
    (ordered : ∀ entry ∈ entries, entry.tree.Ordered) (failed : Shape.mergeAll shape entries = .error clash) :
    ∃ path, ∃ a ∈ nodes path ++ nodesAt entries path, ∃ b ∈ nodes path ++ nodesAt entries path,
      a.isGroup ≠ b.isGroup := by
  induction entries generalizing shape nodes with
  | nil => cases failed
  | cons entry rest ih =>
    obtain ⟨first,others⟩ := List.forall_mem_cons.mp ordered
    have all (path : List String) : nodes path ++ nodesAt (entry :: rest) path =
        (nodes path ++ (entry.tree.follow? path).toList) ++ nodesAt rest path := by
      rw [List.append_assoc,nodesAt,List.filterMap_cons]
      cases entry.tree.follow? path <;> rfl
    simp only [all]
    rw [Shape.mergeAll] at failed
    split at failed
    next one step => exact ih (tallies.merge first step) others failed
    next path step =>
      obtain ⟨path,node,found,other,member,differ⟩ := tallies.meets_of_merge first step
      refine ⟨path,node,?_,other,?_,differ⟩
      · exact List.mem_append_left _ (List.mem_append_right _ (Option.mem_toList.mpr found))
      · exact List.mem_append_left _ (List.mem_append_left _ member)

theorem ofEntries {entries : List Locale.Entry} (ordered : ∀ entry ∈ entries, entry.tree.Ordered)
    (merged : ofEntries entries = .ok shape) : Tallies shape (nodesAt entries) := empty.mergeAll ordered merged

end Tallies

end Shape
end Phrasebook
