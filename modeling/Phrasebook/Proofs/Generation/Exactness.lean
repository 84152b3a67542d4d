import Phrasebook.Proofs.Generation.Union

/-! The numbers of a merged shape determine it, so the order of the locales does not matter:
`Tallies.eq_of_perm`. A member of the interface is marked where some locale has its group without it:
`Union.fewer_iff`. All of this together is `ofEntries_union`, for trees with the keys of each level in order, such
as those of locale files (`Tree.ordered_of_ofText`). -/
namespace Phrasebook
open Std

namespace Shape

open Phrasebook.Locale (Node Tree nodesAt)

variable {shape shape' rest other : Shape} {key first : String} {keys names : List String}

theorem pairwise_collect (names : List String) : (collect [] names).Pairwise (compare · · = .lt) := by
  suffices ∀ params : List String, params.Pairwise (compare · · = .lt) →
      (collect params names).Pairwise (compare · · = .lt) from this [] .nil
  induction names with
  | nil => exact fun _ ascending => ascending
  | cons name rest ih => exact fun params ascending => ih _ (Sorted.pairwise_add ascending)

/-- The placeholders that are collected do not depend on the order in which they occur. -/
theorem collect_perm {others : List String} (perm : names.Perm others) : collect [] names = collect [] others := by
  have irreflexive : Irrefl fun a b : String => compare a b = .lt := ⟨fun a less => ne_of_compare_lt less rfl⟩
  have antisymmetric : Antisymm fun a b : String => compare a b = .lt :=
    ⟨fun a b less greater => by rw [OrientedCmp.gt_of_lt greater] at less; cases less⟩
  refine (pairwise_collect names).eq_of_mem_iff (pairwise_collect others) fun name => ?_
  rw [mem_collect,mem_collect,perm.mem_iff]

/-- The shape with a field in front. -/
def put (key : String) : Field → Shape → Shape
  | .message count params,rest => .message key count params rest
  | .group count inner,rest => .group key count inner rest

/-- What a field says of itself, apart from the fields in it. -/
def Field.face (field : Field) : Nat × Option (List String) := (field.count,field.params?)

/-- The same can be said of the fields at every path. -/
def Matches (shape other : Shape) : Prop :=
  ∀ key keys, (shape.find? (key :: keys)).map Field.face = (other.find? (key :: keys)).map Field.face

theorem eq_empty_or_put (shape : Shape) : shape = .empty ∨ ∃ key field rest, shape = put key field rest := by
  cases shape with
  | empty => exact .inl rfl
  | message key count params rest => exact .inr ⟨key,.message count params,rest,rfl⟩
  | group key count inner rest => exact .inr ⟨key,.group count inner,rest,rfl⟩

theorem ordered_of_put {field : Field} (ordered : (put key field rest).Ordered) : rest.After key ∧ rest.Ordered := by
  cases field with
  | message => exact ordered
  | group => exact ⟨ordered.1,ordered.2.2⟩

theorem after_put {field : Field} (less : compare key first = .lt) : (put first field rest).After key := by
  cases field <;> exact less

theorem find?_put {field : Field} : (put first field rest).find? (key :: keys) =
    if key = first then field.below? keys else rest.find? (key :: keys) := by
  have front : (put first field rest).get? key = if key = first then some field else rest.get? key := by
    cases field <;> rfl
  rw [find?_cons,front,find?_cons]
  split
  · rfl
  · rfl

theorem find?_of_after (ordered : shape.Ordered) (after : shape.After key) : shape.find? (key :: keys) = none := by
  rw [find?_cons,get?_of_after ordered after]
  rfl

namespace Matches

variable {field field' : Field}

theorem eq_empty (same : Matches .empty other) : other = .empty := by
  obtain rfl | ⟨key,field,rest,rfl⟩ := eq_empty_or_put other
  · rfl
  · have here := same key []
    rw [find?_put,if_pos rfl] at here
    cases here

/-- A shape has a first field just like the one that it matches, and the others match. -/
theorem put (field : Field) (same : Matches (Shape.put first field rest) other)
    (ordered : (Shape.put first field rest).Ordered) (ordered' : other.Ordered) :
    ∃ field' rest', other = Shape.put first field' rest' ∧
      (∀ keys, (field.below? keys).map Field.face = (field'.below? keys).map Field.face) ∧
      Matches rest rest' := by
  obtain rfl | ⟨first',field',rest',rfl⟩ := eq_empty_or_put other
  · have here := same first []
    rw [find?_put,if_pos rfl] at here
    cases here
  · have later := ordered_of_put ordered
    have later' := ordered_of_put ordered'
    have equal : first = first' := by
      cases order : compare first first' with
      | lt =>
        have here := same first []
        rw [find?_put,if_pos rfl,find?_of_after ordered' (after_put order)] at here
        cases here
      | eq => exact LawfulEqOrd.compare_eq_iff_eq.mp order
      | gt =>
        have here := same first' []
        rw [find?_of_after ordered (after_put (OrientedCmp.lt_of_gt order)),find?_put,if_pos rfl] at here
        cases here
    subst equal
    refine ⟨field',rest',rfl,fun keys => ?_,fun key keys => ?_⟩
    · have here := same first keys
      rwa [find?_put,find?_put,if_pos rfl,if_pos rfl] at here
    · by_cases here : key = first
      · rw [here,find?_of_after later.2 later.1,find?_of_after later'.2 later'.1]
      · have there := same key keys
        rwa [find?_put,find?_put,if_neg here,if_neg here] at there

/-- So the shapes are the same. -/
theorem eq (same : Matches shape other) (ordered : shape.Ordered) (ordered' : other.Ordered) : shape = other := by
  induction shape generalizing other with
  | empty => exact same.eq_empty.symm
  | message key count params rest ih =>
    obtain ⟨field',rest',rfl,below,others⟩ := put (.message count params) same ordered ordered'
    have equal := ih others ordered.2 (ordered_of_put ordered').2
    have face := below []
    cases field' with
    | group => cases face
    | message count' params' =>
      cases face
      rw [equal]
      rfl
  | group key count inner rest ihInner ih =>
    obtain ⟨field',rest',rfl,below,others⟩ := put (.group count inner) same ordered ordered'
    have equal := ih others ordered.2.2 (ordered_of_put ordered').2
    have face := below []
    cases field' with
    | message => cases face
    | group count' inner' =>
      have inside := ihInner (fun key keys => below (key :: keys)) ordered.2.1 ordered'.2.1
      have counts := congrArg Prod.fst (Option.some.inj face)
      change count = count' at counts
      rw [equal,inside,counts]
      rfl

end Matches

/-- What a field says of itself that adds up some nodes. -/
def faceOf (nodes : List Node) : Option (Nat × Option (List String)) :=
  if nodes.isEmpty then none
  else some (nodes.length,if nodes.any Node.isGroup then none else some (collect [] (nodes.flatMap Node.parameters)))

theorem faceOf_perm {nodes nodes' : List Node} (perm : nodes.Perm nodes') : faceOf nodes = faceOf nodes' := by
  rw [faceOf,faceOf,perm.isEmpty_eq,perm.length_eq,perm.any_eq,collect_perm (perm.flatMap_right Node.parameters)]

theorem Sums.face {nodes : List Node} {field : Option Field} (sums : Sums nodes field) :
    field.map Field.face = faceOf nodes := by
  cases sums with
  | absent => rfl
  | messages texts nonempty =>
    have kind : (texts.map Node.message).any Node.isGroup = false := by simp [Node.isGroup]
    have names : (texts.map Node.message).flatMap Node.parameters = texts.flatMap Message.parameters :=
      List.flatMap_map ..
    rw [faceOf,kind,names]
    simp [nonempty,Field.face,Field.count,Field.params?]
  | groups inners fields nonempty =>
    obtain ⟨inner,rest,rfl⟩ := List.exists_cons_of_ne_nil nonempty
    simp [faceOf,Field.face,Field.count,Field.params?,Node.isGroup]

theorem Sums.count {nodes : List Node} {field : Field} (sums : Sums nodes (some field)) :
    field.count = nodes.length := by
  cases sums with
  | messages | groups => rw [List.length_map]; rfl

theorem Sums.texts {nodes : List Node} {count : Nat} {params : List String}
    (sums : Sums nodes (some (.message count params))) :
    ∃ texts : List String, nodes = texts.map .message ∧ params = collect [] (texts.flatMap Message.parameters) := by
  cases sums with
  | messages texts nonempty => exact ⟨texts,rfl,rfl⟩

/-- Two shapes are the same that tally the same nodes, in whatever order. -/
theorem Tallies.eq_of_perm {nodes nodes' : List String → List Node} (tallies : Tallies shape nodes)
    (tallies' : Tallies other nodes') (perm : ∀ path, (nodes path).Perm (nodes' path)) : shape = other := by
  refine Matches.eq (fun key keys => ?_) tallies.ordered tallies'.ordered
  rw [(tallies.sums key keys).face,(tallies'.sums key keys).face,faceOf_perm (perm _)]

end Shape

namespace Locale

/-- Some path holds a message in one locale and a group in another. -/
def Conflict (entries : List Entry) : Prop :=
  ∃ path, ∃ a ∈ entries, ∃ b ∈ entries, ∃ text inner,
    a.tree.follow? path = some (.message text) ∧ b.tree.follow? path = some (.group inner)

variable {entries : List Entry} {path : List String} {node : Node}

theorem mem_nodesAt : node ∈ nodesAt entries path ↔ ∃ entry ∈ entries, entry.tree.follow? path = some node :=
  List.mem_filterMap

theorem conflict_iff : Conflict entries ↔
    ∃ path, ∃ a ∈ nodesAt entries path, ∃ b ∈ nodesAt entries path, a.isGroup ≠ b.isGroup := by
  constructor
  · rintro ⟨path,a,listed,b,listed',text,inner,message,group⟩
    exact ⟨path,_,mem_nodesAt.mpr ⟨a,listed,message⟩,_,mem_nodesAt.mpr ⟨b,listed',group⟩,Bool.false_ne_true⟩
  · rintro ⟨path,x,member,y,member',differ⟩
    obtain ⟨a,listed,found⟩ := mem_nodesAt.mp member
    obtain ⟨b,listed',found'⟩ := mem_nodesAt.mp member'
    cases x with
    | message text =>
      cases y with
      | message => exact absurd rfl differ
      | group inner => exact ⟨path,a,listed,b,listed',text,inner,found,found'⟩
    | group inner =>
      cases y with
      | message text => exact ⟨path,b,listed',a,listed,text,inner,found',found⟩
      | group => exact absurd rfl differ

end Locale

namespace Shape

open Phrasebook.Locale (Node Tree nodesAt)

variable {entries : List Locale.Entry} {shape : Shape}

theorem not_conflict_of_ok (ordered : ∀ entry ∈ entries, entry.tree.Ordered) (merged : ofEntries entries = .ok shape) :
    ¬Locale.Conflict entries := by
  rw [Locale.conflict_iff]
  rintro ⟨path,a,member,b,member',differ⟩
  cases path with
  | nil => simp [nodesAt,Tree.follow?] at member
  | cons key keys => exact differ (((Tallies.ofEntries ordered merged).sums key keys).uniform a member b member')

theorem conflict_of_error {clash : Clash} (ordered : ∀ entry ∈ entries, entry.tree.Ordered)
    (failed : ofEntries entries = .error clash) : Locale.Conflict entries := by
  obtain ⟨path,a,member,b,member',differ⟩ := Tallies.empty.meets_of_mergeAll ordered failed
  exact Locale.conflict_iff.mpr ⟨path,a,member,b,member',differ⟩

/-- The shape has a field at just the paths that some locale has, with the number of locales that have it, the kind
of their nodes, and the placeholders of all their messages. -/
structure Union (entries : List Locale.Entry) (shape : Shape) : Prop where
  present : ∀ key keys, (shape.find? (key :: keys)).isSome ↔
    ∃ entry ∈ entries, (entry.tree.follow? (key :: keys)).isSome
  counted : ∀ path, ∀ field ∈ shape.find? path,
    field.count = entries.countP fun entry => (entry.tree.follow? path).isSome
  kinds : ∀ path, ∀ field ∈ shape.find? path, ∀ entry ∈ entries, ∀ node ∈ entry.tree.follow? path,
    node.isGroup = field.isGroup
  parameters : ∀ path count params, shape.find? path = some (.message count params) → ∀ name, name ∈ params ↔
    ∃ entry ∈ entries, ∃ text, entry.tree.follow? path = some (.message text) ∧ name ∈ Message.parameters text

theorem Tallies.union (tallies : Tallies shape (nodesAt entries)) : Union entries shape := by
  have sums {path : List String} {field : Field} (found : field ∈ shape.find? path) :
      Sums (nodesAt entries path) (some field) := by
    cases path with
    | nil => cases found
    | cons key keys => exact found ▸ tallies.sums key keys
  refine ⟨fun key keys => ?_,fun path field found => ?_,fun path field found entry listed node here => ?_,
    fun path count params found name => ?_⟩
  · have here := tallies.sums key keys
    constructor
    · intro present
      obtain ⟨field,found⟩ := Option.isSome_iff_exists.mp present
      obtain ⟨node,member,-⟩ := (sums found).exists_of_some
      obtain ⟨entry,listed,reached⟩ := Locale.mem_nodesAt.mp member
      exact ⟨entry,listed,Option.isSome_of_mem reached⟩
    · rintro ⟨entry,listed,present⟩
      obtain ⟨node,reached⟩ := Option.isSome_iff_exists.mp present
      have member : node ∈ nodesAt entries (key :: keys) := Locale.mem_nodesAt.mpr ⟨entry,listed,reached⟩
      rw [Option.isSome_iff_ne_none]
      intro missing
      rw [missing] at here
      rw [here.eq_nil] at member
      cases member
  · rw [(sums found).count,nodesAt,List.length_filterMap_eq_countP]
  · have member : node ∈ nodesAt entries path := Locale.mem_nodesAt.mpr ⟨entry,listed,here⟩
    obtain ⟨other,member',kind⟩ := (sums found).exists_of_some
    rw [← kind]
    exact (sums found).uniform node member other member'
  · obtain ⟨texts,written,rfl⟩ := (sums found).texts
    have translated {text : String} : text ∈ texts ↔
        ∃ entry ∈ entries, entry.tree.follow? path = some (.message text) := by
      rw [← Locale.mem_nodesAt,written]
      simp
    simp only [mem_collect,List.mem_flatMap,translated,List.not_mem_nil,false_or]
    constructor
    · rintro ⟨text,⟨entry,listed,reached⟩,occurs⟩
      exact ⟨entry,listed,text,reached,occurs⟩
    · rintro ⟨entry,listed,text,reached,occurs⟩
      exact ⟨text,⟨entry,listed,reached⟩,occurs⟩

end Shape

namespace Generation

open Phrasebook.Locale (Node Tree)

/-- The label of the member at a path. -/
def Interface.label? : Interface → List String → Option Label
  | _,[] => none
  | .empty,_ => none
  | .member label _ rest,key :: keys =>
    if key = label.key then if keys.isEmpty then some label else none else label? rest (key :: keys)
  | .group label inner rest,key :: keys =>
    if key = label.key then if keys.isEmpty then some label else label? inner keys else label? rest (key :: keys)

end Generation

namespace Shape

open Generation (Interface Label)

variable {entries : List Locale.Entry} {shape : Shape}

/-- How many locales have the group at a path, given how many there are in all. -/
def parents (total : Nat) (shape : Shape) (path : List String) : Nat :=
  if path.isEmpty then total else ((shape.find? path).map Field.count).getD 0

theorem label?_single (total : Nat) (shape : Shape) (key : String) : (Interface.of total shape).label? [key] =
    (shape.get? key).map fun field => ⟨key,decide (field.count < total)⟩ := by
  induction shape with
  | empty => rfl
  | message k count params rest ih =>
    rw [Interface.of,Interface.label?,get?]
    split
    next here => rw [here]; rfl
    next => exact ih
  | group k count inner rest _ ih =>
    rw [Interface.of,Interface.label?,get?]
    split
    next here => rw [here]; rfl
    next => exact ih

theorem label?_below (total : Nat) (shape : Shape) (key next : String) (keys : List String) :
    (Interface.of total shape).label? (key :: next :: keys) = match shape.get? key with
      | some (.group count inner) => (Interface.of count inner).label? (next :: keys)
      | _ => none := by
  induction shape with
  | empty => rfl
  | message k count params rest ih =>
    rw [Interface.of,Interface.label?,get?]
    split
    · rfl
    · exact ih
  | group k count inner rest _ ih =>
    rw [Interface.of,Interface.label?,get?]
    split
    · rfl
    · exact ih

/-- In the interface a member is marked that fewer locales have than have the group around it. -/
theorem label?_of (total : Nat) (shape : Shape) (path : List String) (key : String) :
    (Interface.of total shape).label? (path ++ [key]) =
      (shape.find? (path ++ [key])).map fun field => ⟨key,decide (field.count < shape.parents total path)⟩ := by
  induction path generalizing total shape with
  | nil => exact label?_single total shape key
  | cons first path ih =>
    obtain ⟨next,keys,split⟩ : ∃ next keys, path ++ [key] = next :: keys :=
      List.exists_cons_of_ne_nil (by simp)
    have around {count : Nat} {inner : Shape} (stands : shape.get? first = some (.group count inner)) :
        shape.parents total (first :: path) = inner.parents count path := by
      rw [parents,parents,find?_cons,stands]
      cases path <;> rfl
    rw [List.cons_append,split,label?_below,find?_cons]
    cases stands : shape.get? first with
    | none => rfl
    | some field =>
      cases field with
      | message => rfl
      | group count inner =>
        rw [around stands,← split]
        refine (ih count inner).trans ?_
        rw [split]
        rfl

namespace Union

/-- As many locales have the group around a field as have a group there. -/
theorem parents_eq (union : Union entries shape) {path : List String} {key : String}
    (found : (shape.find? (path ++ [key])).isSome) :
    shape.parents entries.length path = entries.countP (·.tree.hasGroup path) := by
  cases path with
  | nil => exact (congrFun List.countP_true entries).symm
  | cons first path =>
    obtain ⟨entry,listed,below⟩ := (union.present first (path ++ [key])).mp found
    have group : entry.tree.hasGroup (first :: path) := Locale.Tree.hasGroup_of_follow? below
    obtain ⟨node,here,isGroup⟩ := (Option.any_eq_true ..).mp group
    obtain ⟨field,stands⟩ := Option.isSome_iff_exists.mp
      ((union.present first path).mpr ⟨entry,listed,Option.isSome_of_mem here⟩)
    have kind : field.isGroup = true := union.kinds _ field stands entry listed node here ▸ isGroup
    have counted : shape.parents entries.length (first :: path) = field.count := by
      rw [parents,stands]
      rfl
    rw [counted,union.counted _ field stands]
    refine List.countP_congr fun other listed' => ?_
    rw [Locale.Tree.hasGroup,List.isEmpty_cons,Bool.false_or]
    cases reached : other.tree.follow? (first :: path) with
    | none => simp
    | some node' => simp [union.kinds _ field stands other listed' node' reached,kind]

/-- Fewer locales have a field than have the group around it just where one of those lacks it. -/
theorem fewer_iff (union : Union entries shape) {path : List String} {key : String} {field : Field}
    (found : shape.find? (path ++ [key]) = some field) : field.count < shape.parents entries.length path ↔
      ∃ entry ∈ entries, entry.tree.hasGroup path ∧ entry.tree.follow? (path ++ [key]) = none := by
  have inside : entries.countP (fun entry => (entry.tree.follow? (path ++ [key])).isSome) =
      (entries.filter (·.tree.hasGroup path)).countP fun entry => (entry.tree.follow? (path ++ [key])).isSome := by
    rw [List.countP_filter]
    refine List.countP_congr fun entry _ => ?_
    rw [Bool.and_eq_true]
    exact ⟨fun below => ⟨below,Locale.Tree.hasGroup_of_follow? below⟩,And.left⟩
  rw [union.counted _ field found,union.parents_eq (Option.isSome_of_mem found),inside,
    List.countP_eq_length_filter (l := entries),List.countP_lt_length_iff]
  simp [and_assoc]

end Union
end Shape

namespace Generation

/-- The lines of the interface in the text of declarations. -/
def Reading.interfaceLines (declarations : String) : List (List Char) :=
  within (["export interface Locale \x7b"].map String.toList).contains (Text.pieces '\n' declarations.toList)

variable {entries : List Locale.Entry} {shape : Shape}

theorem interfaceLines_render (merged : Shape.ofEntries entries = .ok shape) (locale : Option String) :
    Reading.interfaceLines (Declarations.render (entries.map (·.name)) shape locale) =
      (Declarations.members 1 entries.length shape).map String.toList := by
  have inside : ∀ line ∈ Declarations.members 1 (entries.map (·.name)).length shape, Reading.Inner line :=
    Reading.inner_members (identifiers_of_ofEntries merged) (by decide)
  obtain ⟨before,after,lines,outside,other⟩ := Reading.lines_around (entries.map (·.name)) shape locale
  have unopened : ∀ line ∈ before, line ∉ ["export interface Locale \x7b"] := by simpa using other
  rw [Reading.interfaceLines,Declarations.render,lines,
    Reading.within_unlines before outside (by simp) unopened inside,List.length_map]

/-- The mark of a member in the text of declarations. -/
theorem label?_render (ordered : ∀ entry ∈ entries, entry.tree.Ordered) (merged : Shape.ofEntries entries = .ok shape)
    (locale : Option String) : ∃ declared,
      Reading.declarations? (Declarations.render (entries.map (·.name)) shape locale) = some declared ∧
      ∀ path key label, Interface.label? declared.interface (path ++ [key]) = some label ↔
        (∃ entry ∈ entries, (entry.tree.follow? (path ++ [key])).isSome) ∧ label.key = key ∧
        (label.optional ↔ ∃ entry ∈ entries, entry.tree.hasGroup path ∧ entry.tree.follow? (path ++ [key]) = none) := by
  have union : shape.Union entries := (Shape.Tallies.ofEntries ordered merged).union
  refine ⟨_,Reading.declarations?_render (identifiers_of_ofEntries merged) locale,fun path key label => ?_⟩
  obtain ⟨first,keys,split⟩ : ∃ first keys, path ++ [key] = first :: keys := List.exists_cons_of_ne_nil (by simp)
  have present := union.present first keys
  rw [← split] at present
  rw [List.length_map,Shape.label?_of,← present,Option.map_eq_some_iff]
  constructor
  · rintro ⟨field,found,rfl⟩
    exact ⟨Option.isSome_of_mem found,rfl,decide_eq_true_iff.trans (union.fewer_iff found)⟩
  · rintro ⟨found,rfl,optional⟩
    obtain ⟨field,stands⟩ := Option.isSome_iff_exists.mp found
    have mark : decide (field.count < shape.parents entries.length path) = label.optional := by
      rw [Bool.eq_iff_iff,decide_eq_true_iff,optional,union.fewer_iff stands]
    exact ⟨field,stands,by rw [mark]⟩

/-- Locales in another order have the same shape, or none either. -/
theorem toOption_ofEntries_of_perm {others : List Locale.Entry} (ordered : ∀ entry ∈ entries, entry.tree.Ordered)
    (perm : entries.Perm others) : (Shape.ofEntries others).toOption = (Shape.ofEntries entries).toOption := by
  have ordered' : ∀ entry ∈ others, entry.tree.Ordered := fun entry listed => ordered entry (perm.mem_iff.mpr listed)
  have conflict : Locale.Conflict entries ↔ Locale.Conflict others := by simp only [Locale.Conflict,perm.mem_iff]
  cases merged : Shape.ofEntries entries with
  | error clash =>
    cases merged' : Shape.ofEntries others with
    | error => rfl
    | ok other =>
      exact absurd (conflict.mp (Shape.conflict_of_error ordered merged)) (Shape.not_conflict_of_ok ordered' merged')
  | ok shape =>
    cases merged' : Shape.ofEntries others with
    | error clash =>
      exact absurd (conflict.mpr (Shape.conflict_of_error ordered' merged')) (Shape.not_conflict_of_ok ordered merged)
    | ok other =>
      have same : other = shape := (Shape.Tallies.ofEntries ordered' merged').eq_of_perm
        (Shape.Tallies.ofEntries ordered merged) fun path => (perm.filterMap _).symm
      rw [same]

/-- Merging fails just where a message meets a group. Else the shape is the union of the locales, a member of the
rendered interface is optional just where some locale has its group without it, and the order of the locales
matters neither for success nor for the interface. -/
theorem ofEntries_union (ordered : ∀ entry ∈ entries, entry.tree.Ordered) :
    ((∃ clash, Shape.ofEntries entries = .error clash) ↔ Locale.Conflict entries) ∧
    (∀ shape, Shape.ofEntries entries = .ok shape → shape.Union entries ∧
      ∀ locale, ∃ declared,
        Reading.declarations? (Declarations.render (entries.map (·.name)) shape locale) = some declared ∧
        ∀ path key label, Interface.label? declared.interface (path ++ [key]) = some label ↔
          (∃ entry ∈ entries, (entry.tree.follow? (path ++ [key])).isSome) ∧ label.key = key ∧
          (label.optional ↔
            ∃ entry ∈ entries, entry.tree.hasGroup path ∧ entry.tree.follow? (path ++ [key]) = none)) ∧
    ∀ others, entries.Perm others →
      (Shape.ofEntries others).toOption = (Shape.ofEntries entries).toOption ∧
      ∀ shape other, Shape.ofEntries entries = .ok shape → Shape.ofEntries others = .ok other → ∀ locale locale',
        Reading.interfaceLines (Declarations.render (others.map (·.name)) other locale') =
          Reading.interfaceLines (Declarations.render (entries.map (·.name)) shape locale) := by
  refine ⟨⟨fun ⟨clash,failed⟩ => Shape.conflict_of_error ordered failed,fun conflict => ?_⟩,
    fun shape merged => ⟨(Shape.Tallies.ofEntries ordered merged).union,label?_render ordered merged⟩,
    fun others perm => ⟨toOption_ofEntries_of_perm ordered perm,fun shape other merged merged' locale locale' => ?_⟩⟩
  · cases merged : Shape.ofEntries entries with
    | error clash => exact ⟨clash,rfl⟩
    | ok shape => exact absurd conflict (Shape.not_conflict_of_ok ordered merged)
  · have same := toOption_ofEntries_of_perm ordered perm
    rw [merged,merged'] at same
    rw [interfaceLines_render merged,interfaceLines_render merged',perm.length_eq,Option.some.inj same]

namespace Menu

def english : Locale.Entry :=
  ⟨"en",.group "menu" (.message "close" "Close" (.message "open" "Open \x7bname\x7d" .empty)) .empty⟩

def french : Locale.Entry := ⟨"fr",.group "menu" (.message "open" "Ouvrir" .empty) (.message "title" "Titre" .empty)⟩

def merged : Shape :=
  .group "menu" 2 (.message "close" 1 [] (.message "open" 2 ["name"] .empty)) (.message "title" 1 [] .empty)

end Menu

open Menu in
/-- The French menu lacks an entry, and the English locale a title. -/
theorem menu_union : (∀ entry ∈ [english,french], entry.tree.Ordered) ∧ ¬Locale.Conflict [english,french] ∧
    (Shape.ofEntries [french,english]).toOption = some merged ∧ merged.Union [english,french] ∧
    ∃ declared, Reading.declarations? (Declarations.render ["en","fr"] merged none) = some declared ∧
      Interface.label? declared.interface ["menu","close"] = some ⟨"close",true⟩ ∧
      Interface.label? declared.interface ["title"] = some ⟨"title",true⟩ := by
  have ordered : ∀ entry ∈ [english,french], entry.tree.Ordered := by
    have inside : compare "close" "open" = .lt := by decide +kernel
    have outside : compare "menu" "title" = .lt := by decide +kernel
    simp only [List.forall_mem_cons]
    exact ⟨⟨trivial,⟨inside,trivial,trivial⟩,trivial⟩,⟨outside,⟨trivial,trivial⟩,trivial,trivial⟩,nofun⟩
  have evaluated : (Shape.ofEntries [english,french]).toOption = some merged := by decide +kernel
  obtain ⟨fails,succeeds,order⟩ := ofEntries_union ordered
  cases result : Shape.ofEntries [english,french] with
  | error clash =>
    rw [result] at evaluated
    cases evaluated
  | ok found =>
    rw [result] at evaluated
    cases evaluated
    obtain ⟨union,labels⟩ := succeeds merged result
    obtain ⟨declared,read,label⟩ := labels none
    refine ⟨ordered,?_,(order _ (.swap ..)).1.trans (by rw [result]; rfl),union,declared,read,?_,?_⟩
    · rw [← fails,result]
      rintro ⟨clash,same⟩
      cases same
    · refine (label ["menu"] "close" _).mpr ⟨⟨english,by decide,by decide +kernel⟩,rfl,?_⟩
      exact ⟨fun _ => ⟨french,by decide,by decide +kernel,by decide +kernel⟩,fun _ => rfl⟩
    · refine (label [] "title" _).mpr ⟨⟨french,by decide,by decide +kernel⟩,rfl,?_⟩
      exact ⟨fun _ => ⟨english,by decide,by decide +kernel,by decide +kernel⟩,fun _ => rfl⟩

end Generation
end Phrasebook
