import Mathlib.Data.List.Nodup
import Phrasebook.Proofs.Locale.Reordering

/-! A dotted path is followed key by key, also through empty keys, and the messages of a tree are counted by the paths
that end in them: `lookup_leads`. Trees are those that come about by insertions, so every level has a key once. -/
namespace Phrasebook.Locale.Tree
open Std

/-- What comes about by insertions into the empty tree, of messages and of groups that came about so. -/
inductive Built : Tree → Prop where
  | empty : Built .empty
  | message {tree : Tree} (built : Built tree) (key text : String) : Built (tree.insert key (.message text))
  | group {tree inner : Tree} (built : Built tree) (key : String) (below : Built inner) :
      Built (tree.insert key (.group inner))

/-- The node at the end of a path, each key of which is one of the level that the keys before it lead to. -/
inductive Leads : Tree → List String → Node → Prop where
  | child {tree : Tree} {key : String} {node : Node} (here : (key,node) ∈ tree.entries) : Leads tree [key] node
  | inside {tree inner : Tree} {key : String} {path : List String} {node : Node}
      (here : (key,.group inner) ∈ tree.entries) (rest : Leads inner path node) : Leads tree (key :: path) node

/-- A key of the path is missing, or the path goes on behind a message. -/
inductive Blocked : Tree → List String → Prop where
  | missing {tree : Tree} {key : String} (path : List String) (absent : ∀ node, (key,node) ∉ tree.entries) :
      Blocked tree (key :: path)
  | message {tree : Tree} {key text : String} (here : (key,.message text) ∈ tree.entries) (next : String)
      (path : List String) : Blocked tree (key :: next :: path)
  | inside {tree inner : Tree} {key : String} {path : List String} (here : (key,.group inner) ∈ tree.entries)
      (rest : Blocked inner path) : Blocked tree (key :: path)

variable {tree inner : Tree} {node : Node} {key low : String} {keys path : List String}

theorem Built.ordered (built : tree.Built) : tree.Ordered := by
  induction built with
  | empty => trivial
  | message _ _ _ ih => exact ih.insert trivial
  | group _ _ _ ih below => exact ih.insert below

theorem entries_put {rest : Tree} : (put key node rest).entries = (key,node) :: rest.entries := by
  cases node <;> rfl

theorem lt_of_mem_entries (ordered : tree.Ordered) (after : tree.After low) (member : (key,node) ∈ tree.entries) :
    compare low key = .lt := by
  induction tree using put_induction generalizing low with
  | empty => cases member
  | put k n rest ih =>
    obtain ⟨first,-,below⟩ := ordered_put_iff.mp ordered
    have less := after_put_iff.mp after
    rw [entries_put] at member
    rcases List.mem_cons.mp member with here | later
    · cases here
      exact less
    · exact TransCmp.lt_trans less (ih below first later)

theorem Ordered.of_mem_entries (ordered : tree.Ordered) (member : (key,.group inner) ∈ tree.entries) :
    inner.Ordered := by
  induction tree using put_induction with
  | empty => cases member
  | put k n rest ih =>
    obtain ⟨-,here,below⟩ := ordered_put_iff.mp ordered
    rw [entries_put] at member
    rcases List.mem_cons.mp member with first | later
    · cases first
      exact here
    · exact ih below later

/-- Since no key occurs twice on a level, the first hit is the only one. -/
theorem get?_eq_some_iff (ordered : tree.Ordered) : tree.get? key = some node ↔ (key,node) ∈ tree.entries := by
  induction tree using put_induction with
  | empty => exact ⟨nofun,nofun⟩
  | put k n rest ih =>
    obtain ⟨after,-,below⟩ := ordered_put_iff.mp ordered
    rw [get?_put,entries_put,List.mem_cons]
    split
    next here =>
      subst here
      have alone : (key,node) ∉ rest.entries := fun later => ne_of_compare_lt (lt_of_mem_entries below after later) rfl
      simp [alone,eq_comm]
    next other => simp [ih below,other]

theorem get?_eq_none_iff (ordered : tree.Ordered) : tree.get? key = none ↔ ∀ node, (key,node) ∉ tree.entries := by
  simp [Option.eq_none_iff_forall_ne_some,get?_eq_some_iff ordered]

section Following

variable {next : String} {rest : List String}

theorem follow?_of_group (found : tree.get? key = some (.group inner)) :
    tree.follow? (key :: next :: rest) = inner.follow? (next :: rest) := by
  rw [follow?,found]
  nofun

theorem follow?_of_message {text : String} (found : tree.get? key = some (.message text)) :
    tree.follow? (key :: next :: rest) = none := by
  rw [follow?,found]
  nofun

theorem follow?_of_missing (missing : tree.get? key = none) : tree.follow? (key :: keys) = none := by
  cases keys with
  | nil => exact missing
  | cons =>
    rw [follow?,missing]
    nofun

end Following

theorem follow?_eq_some_iff (ordered : tree.Ordered) : tree.follow? keys = some node ↔ tree.Leads keys node := by
  constructor
  · intro found
    induction keys generalizing tree with
    | nil => cases found
    | cons key rest ih =>
      cases rest with
      | nil => exact .child ((get?_eq_some_iff ordered).mp found)
      | cons next rest =>
        cases here : tree.get? key with
        | none => rw [follow?_of_missing here] at found; cases found
        | some child =>
          cases child with
          | message text => rw [follow?_of_message here] at found; cases found
          | group inner =>
            rw [follow?_of_group here] at found
            have member := (get?_eq_some_iff ordered).mp here
            exact .inside member (ih (ordered.of_mem_entries member) found)
  · intro leads
    induction leads with
    | child here => exact (get?_eq_some_iff ordered).mpr here
    | inside here rest ih =>
      have found := (get?_eq_some_iff ordered).mpr here
      cases rest <;> exact (follow?_of_group found).trans (ih (ordered.of_mem_entries here))

theorem follow?_eq_none_iff (ordered : tree.Ordered) (some : keys ≠ []) :
    tree.follow? keys = none ↔ tree.Blocked keys := by
  constructor
  · intro lost
    induction keys generalizing tree with
    | nil => exact absurd rfl some
    | cons key rest ih =>
      cases here : tree.get? key with
      | none => exact .missing rest ((get?_eq_none_iff ordered).mp here)
      | some child =>
        have member := (get?_eq_some_iff ordered).mp here
        cases rest with
        | nil => rw [show tree.follow? [key] = tree.get? key from rfl,here] at lost; cases lost
        | cons next rest =>
          cases child with
          | message text => exact .message member next rest
          | group inner =>
            rw [follow?_of_group here] at lost
            exact .inside member (ih (ordered.of_mem_entries member) (List.cons_ne_nil next rest) lost)
  · intro blocked
    induction blocked with
    | missing path absent => exact follow?_of_missing ((get?_eq_none_iff ordered).mpr absent)
    | message here next path => exact follow?_of_message ((get?_eq_some_iff ordered).mpr here)
    | inside here rest ih =>
      have found := (get?_eq_some_iff ordered).mpr here
      cases rest <;> exact (follow?_of_group found).trans (ih (ordered.of_mem_entries here) (List.cons_ne_nil _ _))

/-- An insertion replaces what stands under its key, and nothing else on the level. -/
theorem mem_entries_insert {other : String} {found : Node} (ordered : tree.Ordered) :
    (other,found) ∈ (tree.insert key node).entries ↔ if other = key then found = node else (other,found) ∈ tree.entries := by
  -- a key that comes before all others is in no entry
  have absent {rest : Tree} (below : rest.Ordered) (after : rest.After key) : (key,found) ∉ rest.entries :=
    fun member => ne_of_compare_lt (lt_of_mem_entries below after member) rfl
  induction tree using put_induction with
  | empty =>
    rw [show Tree.empty.insert key node = put key node .empty from rfl,entries_put]
    simp [entries]
  | put k n rest ih =>
    obtain ⟨after,-,below⟩ := ordered_put_iff.mp ordered
    rw [insert_put]
    split
    next less =>
      rw [entries_put,List.mem_cons]
      split
      next here =>
        subst here
        simp [absent ordered (after_put_iff.mpr less)]
      next differ => simp [differ]
    next same =>
      obtain rfl := LawfulEqOrd.compare_eq_iff_eq.mp same
      rw [entries_put,entries_put,List.mem_cons,List.mem_cons]
      split
      next here =>
        subst here
        simp [absent below after]
      next differ => simp [differ]
    next greater =>
      have later := ne_of_compare_gt greater
      rw [entries_put,entries_put,List.mem_cons,List.mem_cons]
      refine (or_congr_right (ih below)).trans ?_
      split
      next here =>
        subst here
        simp [later]
      next => rfl

theorem toList_intercalate_dot (keys : List String) :
    (String.intercalate "." keys).toList = Text.joined '.' (keys.map String.toList) := by
  induction keys with
  | nil => rfl
  | cons key keys ih =>
    cases keys with
    | nil => simp [Text.joined]
    | cons next rest => simp [String.intercalate_cons_cons,Text.joined,ih]

/-- Keys without dots are the pieces between the dots of the path. -/
theorem split_intercalate (some : keys ≠ []) (free : ∀ key ∈ keys, '.' ∉ key.toList) :
    Text.split '.' (String.intercalate "." keys) = keys := by
  have pieces : Text.pieces '.' (Text.joined '.' (keys.map String.toList)) = keys.map String.toList := by
    refine Text.pieces_joined (by simpa using some) ?_
    simpa using free
  rw [Text.split,toList_intercalate_dot,pieces,List.map_map]
  simp [Function.comp_def]

theorem intercalate_split (text : String) : String.intercalate "." (Text.split '.' text) = text := by
  apply String.toList_injective
  rw [toList_intercalate_dot,Text.split,List.map_map]
  simp [Function.comp_def,Text.joined_pieces]

theorem dot_not_mem_split {text : String} : ∀ key ∈ Text.split '.' text, '.' ∉ key.toList := by
  intro key member
  obtain ⟨piece,inside,rfl⟩ := List.mem_map.mp member
  rw [String.toList_ofList]
  exact Text.pieces_free '.' text.toList piece inside

/-- The paths of the messages. -/
def messagePaths : Tree → List (List String)
  | .empty => []
  | .message key _ rest => [key] :: messagePaths rest
  | .group key inner rest => (messagePaths inner).map (key :: ·) ++ messagePaths rest

theorem length_messagePaths (tree : Tree) : tree.messagePaths.length = tree.messageCount := by
  induction tree with
  | empty => rfl
  | message key text rest ih => simp [messagePaths,messageCount,ih]
  | group key inner rest ihInner ih => simp [messagePaths,messageCount,ihInner,ih]

theorem leads_put_iff (key : String) (node : Node) (rest : Tree) (path : List String) (found : Node) :
    (put key node rest).Leads path found ↔
    (path = [key] ∧ found = node) ∨ (∃ inner tail, node = .group inner ∧ path = key :: tail ∧ inner.Leads tail found) ∨
      rest.Leads path found := by
  constructor
  · intro leads
    cases leads with
    | child here =>
      rw [entries_put] at here
      rcases List.mem_cons.mp here with first | later
      · cases first
        exact .inl ⟨rfl,rfl⟩
      · exact .inr (.inr (.child later))
    | inside here leads =>
      rw [entries_put] at here
      rcases List.mem_cons.mp here with first | later
      · cases first
        exact .inr (.inl ⟨_,_,rfl,rfl,leads⟩)
      · exact .inr (.inr (.inside later leads))
  · have first : (key,node) ∈ (put key node rest).entries := by rw [entries_put]; exact List.mem_cons_self
    have later {entry : String × Node} (member : entry ∈ rest.entries) : entry ∈ (put key node rest).entries := by
      rw [entries_put]
      exact List.mem_cons_of_mem _ member
    rintro (⟨rfl,rfl⟩ | ⟨inner,tail,rfl,rfl,leads⟩ | leads)
    · exact .child first
    · exact .inside first leads
    · cases leads with
      | child here => exact .child (later here)
      | inside here leads => exact .inside (later here) leads

theorem mem_messagePaths : path ∈ tree.messagePaths ↔ ∃ text, tree.Leads path (.message text) := by
  induction tree generalizing path with
  | empty =>
    refine iff_of_false nofun ?_
    rintro ⟨text,leads⟩
    cases leads with
    | child here => cases here
    | inside here => cases here
  | message key text rest ih =>
    have split (found : Node) := leads_put_iff key (.message text) rest path found
    simp only [put] at split
    simp [messagePaths,split,ih,exists_or]
  | group key inner rest ihInner ih =>
    have split (found : Node) := leads_put_iff key (.group inner) rest path found
    simp only [put] at split
    simp only [messagePaths,List.mem_append,List.mem_map,split,ih,ihInner]
    constructor
    · rintro (⟨tail,⟨text,leads⟩,rfl⟩ | ⟨text,leads⟩)
      · exact ⟨text,.inr (.inl ⟨inner,tail,rfl,rfl,leads⟩)⟩
      · exact ⟨text,.inr (.inr leads)⟩
    · rintro ⟨text,⟨-,other⟩ | ⟨_,tail,same,rfl,leads⟩ | leads⟩
      · cases other
      · cases same
        exact .inl ⟨tail,⟨text,leads⟩,rfl⟩
      · exact .inr ⟨text,leads⟩

/-- A path begins with a key of the first level. -/
theorem Leads.head (leads : tree.Leads path node) : ∃ key child tail, path = key :: tail ∧ (key,child) ∈ tree.entries := by
  cases leads with
  | child here => exact ⟨_,_,_,rfl,here⟩
  | inside here => exact ⟨_,_,_,rfl,here⟩

theorem cons_not_mem_messagePaths (ordered : tree.Ordered) (after : tree.After key) : key :: path ∉ tree.messagePaths := by
  intro member
  obtain ⟨text,leads⟩ := mem_messagePaths.mp member
  obtain ⟨first,child,tail,same,here⟩ := leads.head
  cases same
  exact ne_of_compare_lt (lt_of_mem_entries ordered after here) rfl

theorem nodup_messagePaths (ordered : tree.Ordered) : tree.messagePaths.Nodup := by
  induction tree with
  | empty => exact List.nodup_nil
  | message key text rest ih =>
    obtain ⟨after,below⟩ := ordered
    exact List.nodup_cons.mpr ⟨cons_not_mem_messagePaths below after,ih below⟩
  | group key inner rest ihInner ih =>
    obtain ⟨after,inside,below⟩ := ordered
    refine ((ihInner inside).map fun one two same => List.tail_eq_of_cons_eq same).append (ih below) ?_
    intro path first later
    obtain ⟨tail,-,rfl⟩ := List.mem_map.mp first
    exact cons_not_mem_messagePaths below after later

/-- The lookup of keys joined by dots gives the node that they lead to, and nothing exactly if they lead nowhere. A
node that is found for any text is where the pieces between its dots lead. There are as many messages as paths that
end in one. An insertion replaces what stands under its key and nothing else. -/
theorem lookup_leads (built : tree.Built) :
    (∀ keys ≠ [], (∀ key ∈ keys, '.' ∉ key.toList) →
      (∀ node, tree.lookup? (String.intercalate "." keys) = some node ↔ tree.Leads keys node) ∧
      (tree.lookup? (String.intercalate "." keys) = none ↔ tree.Blocked keys)) ∧
    (∀ text node, tree.lookup? text = some node → ∃ keys, (∀ key ∈ keys, '.' ∉ key.toList) ∧
      String.intercalate "." keys = text ∧ tree.Leads keys node) ∧
    (∃ paths : List (List String), paths.Nodup ∧ (∀ path, path ∈ paths ↔ ∃ text, tree.Leads path (.message text)) ∧
      paths.length = tree.messageCount) ∧
    ∀ key node other found, (other,found) ∈ (tree.insert key node).entries ↔
      if other = key then found = node else (other,found) ∈ tree.entries := by
  have ordered := built.ordered
  refine ⟨fun keys some free => ?_,fun text node found => ?_,?_,?_⟩
  · rw [lookup?,split_intercalate some free]
    exact ⟨fun node => follow?_eq_some_iff ordered,follow?_eq_none_iff ordered some⟩
  · exact ⟨Text.split '.' text,dot_not_mem_split,intercalate_split text,(follow?_eq_some_iff ordered).mp found⟩
  · exact ⟨tree.messagePaths,nodup_messagePaths ordered,fun path => mem_messagePaths,length_messagePaths tree⟩
  · exact fun key node other found => mem_entries_insert ordered

/-- A group takes the place of a message, and the message in it stands under the empty key. -/
def regrouped : Tree :=
  (Tree.empty.insert "menu" (.message "Menu")).insert "menu" (.group (Tree.empty.insert "" (.message "Quit")))

theorem regrouped_leads : regrouped.Built ∧ regrouped.lookup? "menu." = some (.message "Quit") ∧
    regrouped.lookup? "menu..quit" = none ∧ regrouped.messageCount = 1 := by
  have built : regrouped.Built := (Built.empty.message "menu" "Menu").group "menu" (Built.empty.message "" "Quit")
  have level : regrouped.entries = [("menu",.group (.message "" "Quit" .empty))] := by decide
  have here : ("menu",.group (.message "" "Quit" .empty)) ∈ regrouped.entries := by rw [level]; exact List.mem_cons_self
  obtain ⟨leads,-,-,-⟩ := lookup_leads built
  have found := (leads ["menu",""] (by decide) (by decide)).1 (.message "Quit")
  have lost := (leads ["menu","","quit"] (by decide) (by decide)).2
  refine ⟨built,found.mpr (.inside here (.child List.mem_cons_self)),lost.mpr (.inside here ?_),rfl⟩
  exact .message List.mem_cons_self "quit" []

end Phrasebook.Locale.Tree
