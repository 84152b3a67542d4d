import Phrasebook.Proofs.Locale.Reordering
import Phrasebook.Proofs.Yaml.Keys

/-! How many messages of a locale file its tree has. An entry gives way to a later one of its mapping whose key is
printed alike, with all messages in it. Keys of one mapping that differ are printed alike only if one is a string and
the other the number or boolean that it spells: `ofValue_counted`. -/
namespace Phrasebook.Locale
open Std
open Yaml (Value Distinct Everywhere Reaches everywhere_mapping everywhere_tagged)

mutual

/-- The scalars of a value, below mappings and tags. -/
def leaves : Value → Nat
  | .mapping entries => entryLeaves entries
  | .tagged _ value => leaves value
  | .sequence _ => 0
  | _ => 1

def entryLeaves : List (Value × Value) → Nat
  | [] => 0
  | (_,value) :: rest => leaves value + entryLeaves rest

end

/-- An entry with this key has a later one whose key is printed alike. -/
def superseded (key : Value) (rest : List (Value × Value)) : Bool := rest.any fun later => keyText? later.1 = keyText? key

mutual

/-- The scalars that are not in an entry that gives way to a later one. -/
def kept : Value → Nat
  | .mapping entries => entryKept entries
  | .tagged _ value => kept value
  | .sequence _ => 0
  | _ => 1

def entryKept : List (Value × Value) → Nat
  | [] => 0
  | (key,value) :: rest => (if superseded key rest then 0 else kept value) + entryKept rest

end

def Node.messageCount : Node → Nat
  | .message _ => 1
  | .group tree => tree.messageCount

namespace Tree

/-- The messages of a tree but for those under some keys of its first level. -/
def weight (skip : List String) : Tree → Nat
  | .empty => 0
  | .message key _ rest => (if key ∈ skip then 0 else 1) + weight skip rest
  | .group key inner rest => (if key ∈ skip then 0 else inner.messageCount) + weight skip rest

variable {tree rest : Tree} {node : Node} {key : String} {skip : List String}

theorem weight_put : (put key node rest).weight skip =
    (if key ∈ skip then 0 else node.messageCount) + rest.weight skip := by
  cases node <;> rfl

theorem weight_nil : tree.weight [] = tree.messageCount := by
  induction tree with
  | empty => rfl
  | message key text rest ih =>
    rw [weight,messageCount,ih,if_neg List.not_mem_nil]
    exact Nat.add_comm _ _
  | group key inner rest _ ih => rw [weight,messageCount,ih,if_neg List.not_mem_nil]

theorem weight_of_after (ordered : tree.Ordered) (after : tree.After key) : tree.weight (key :: skip) = tree.weight skip := by
  induction tree using put_induction with
  | empty => rfl
  | put k n rest ih =>
    obtain ⟨first,-,below⟩ := ordered_put_iff.mp ordered
    have less := after_put_iff.mp after
    have differ := (ne_of_compare_lt less).symm
    rw [weight_put,weight_put,ih below (first.trans less)]
    simp only [List.mem_cons,differ,false_or]

/-- A node that is inserted counts instead of the one that it replaces. -/
theorem weight_insert (ordered : tree.Ordered) : (tree.insert key node).weight skip =
    (if key ∈ skip then 0 else node.messageCount) + tree.weight (key :: skip) := by
  induction tree using put_induction with
  | empty => exact weight_put
  | put k n rest ih =>
    obtain ⟨first,-,below⟩ := ordered_put_iff.mp ordered
    rw [insert_put]
    split
    next less => rw [weight_put,weight_of_after ordered (after_put_iff.mpr less)]
    next same =>
      obtain rfl := LawfulEqOrd.compare_eq_iff_eq.mp same
      rw [weight_put,weight_put,if_pos List.mem_cons_self,weight_of_after below first,Nat.zero_add]
    next greater =>
      have differ := (ne_of_compare_gt greater).symm
      rw [weight_put,weight_put,ih below]
      simp only [List.mem_cons,differ,false_or]
      omega

end Tree

/-- The keys of some entries as they are printed. -/
def texts (entries : List (Value × Value)) : List String := entries.filterMap fun entry => keyText? entry.1

theorem superseded_iff {key : Value} {text : String} {rest : List (Value × Value)} (printed : keyText? key = some text) :
    superseded key rest = true ↔ text ∈ texts rest := by
  simp [superseded,texts,printed]

mutual

/-- The tree has the messages that are kept. -/
theorem node_kept {path : String} {value : Value} {found : Node} (read : node path value = .ok found) :
    found.messageCount = kept value := by
  cases value with
  | null | bool | number | string => cases read; rfl
  | sequence => cases read
  | tagged tag value =>
    rw [node] at read
    rw [kept]
    exact node_kept read
  | mapping entries =>
    rw [node] at read
    cases grouped : group path .empty entries with
    | error fault => rw [grouped] at read; cases read
    | ok tree =>
      have start : Tree.empty.Ordered := trivial
      have count := group_kept start grouped
      rw [grouped] at read
      cases read
      rw [kept,Node.messageCount,count]
      exact Nat.zero_add _

theorem group_kept {path : String} {tree found : Tree} {entries : List (Value × Value)} (ordered : tree.Ordered)
    (read : group path tree entries = .ok found) : found.messageCount = tree.weight (texts entries) + entryKept entries := by
  cases entries with
  | nil =>
    cases read
    exact Tree.weight_nil.symm
  | cons entry rest =>
    obtain ⟨key,value⟩ := entry
    obtain ⟨text,child,printed,below,later⟩ := group_cons_ok_iff.mp read
    have own := node_kept below
    have keys : texts ((key,value) :: rest) = text :: texts rest := List.filterMap_cons_some printed
    -- The child counts unless a later entry has its key. What the tree had under this key does not count either way.
    rw [group_kept (ordered.insert (ordered_of_node below)) later,Tree.weight_insert ordered,keys,entryKept,own]
    simp only [superseded_iff printed]
    omega

end

/-- Entries that give way to later ones have no scalars. -/
def Spared (entries : List (Value × Value)) : Prop :=
  entries.Pairwise fun first later => keyText? first.1 = keyText? later.1 → leaves first.2 = 0

mutual

theorem kept_le (value : Value) : kept value ≤ leaves value := by
  cases value with
  | null | bool | number | string | sequence => exact Nat.le_refl _
  | tagged tag value =>
    rw [kept,leaves]
    exact kept_le value
  | mapping entries =>
    rw [kept,leaves]
    exact entryKept_le entries

theorem entryKept_le (entries : List (Value × Value)) : entryKept entries ≤ entryLeaves entries := by
  cases entries with
  | nil => exact Nat.le_refl _
  | cons entry rest =>
    obtain ⟨key,value⟩ := entry
    have first := kept_le value
    have later := entryKept_le rest
    rw [entryKept,entryLeaves]
    split <;> omega

end

theorem superseded_true_iff {key : Value} {rest : List (Value × Value)} : superseded key rest = true ↔
    ∃ later ∈ rest, keyText? key = keyText? later.1 := by
  rw [superseded,List.any_eq_true]
  constructor
  · rintro ⟨later,member,same⟩
    exact ⟨later,member,(of_decide_eq_true same).symm⟩
  · rintro ⟨later,member,same⟩
    exact ⟨later,member,decide_eq_true same.symm⟩

theorem superseded_false_iff {key : Value} {rest : List (Value × Value)} : superseded key rest = false ↔
    ∀ later ∈ rest, keyText? key ≠ keyText? later.1 := by
  simp only [← Bool.not_eq_true,superseded_true_iff,not_exists,not_and,ne_eq]

mutual

/-- All scalars are kept exactly if none is in an entry that gives way. -/
theorem kept_eq_iff (value : Value) : kept value = leaves value ↔ Everywhere Spared value := by
  cases value with
  | null => exact iff_of_true rfl Yaml.IsScalar.null.everywhere
  | bool b => exact iff_of_true rfl (Yaml.IsScalar.bool b).everywhere
  | number n => exact iff_of_true rfl (Yaml.IsScalar.number n).everywhere
  | string text => exact iff_of_true rfl (Yaml.IsScalar.string text).everywhere
  | sequence items => exact iff_of_true rfl fun entries reached => by cases reached
  | tagged tag value =>
    rw [kept,leaves,everywhere_tagged]
    exact kept_eq_iff value
  | mapping entries =>
    rw [kept,leaves,everywhere_mapping]
    exact entryKept_eq_iff entries

theorem entryKept_eq_iff (entries : List (Value × Value)) : entryKept entries = entryLeaves entries ↔
    Spared entries ∧ ∀ entry ∈ entries, Everywhere Spared entry.2 := by
  cases entries with
  | nil => exact iff_of_true rfl ⟨.nil,nofun⟩
  | cons entry rest =>
    obtain ⟨key,value⟩ := entry
    have first := kept_le value
    have later := entryKept_le rest
    have below := kept_eq_iff value
    have spared : Spared ((key,value) :: rest) ↔
      (∀ other ∈ rest, keyText? key = keyText? other.1 → leaves value = 0) ∧ Spared rest := List.pairwise_cons
    rw [spared,List.forall_mem_cons,← below]
    have parted : entryKept ((key,value) :: rest) = entryLeaves ((key,value) :: rest) ↔
        ((if superseded key rest then 0 else kept value) = leaves value) ∧ entryKept rest = entryLeaves rest := by
      rw [entryKept,entryLeaves]
      split <;> omega
    rw [parted,entryKept_eq_iff rest]
    -- An entry that gives way is missed only if it has scalars, and then those below it need no look.
    cases gives_way : superseded key rest with
    | false =>
      have alone := superseded_false_iff.mp gives_way
      constructor
      · rintro ⟨own,spared,inner⟩
        exact ⟨⟨fun other member same => absurd same (alone other member),spared⟩,own,inner⟩
      · rintro ⟨⟨-,spared⟩,own,inner⟩
        exact ⟨own,spared,inner⟩
    | true =>
      obtain ⟨other,member,same⟩ := superseded_true_iff.mp gives_way
      constructor
      · rintro ⟨none,spared,inner⟩
        have none : leaves value = 0 := none.symm
        exact ⟨⟨fun _ _ _ => none,spared⟩,by omega,inner⟩
      · rintro ⟨⟨none,spared⟩,-,inner⟩
        exact ⟨(none other member same).symm,spared,inner⟩

end

/-- A string is what another key is printed as. -/
inductive Spells : Value → Value → Prop where
  | number (n : Yaml.Number) : Spells (.string n.text) (.number n)
  | bool (b : Bool) : Spells (.string (toString b)) (.bool b)

/-- One of two keys spells the other. -/
def Collide (first second : Value) : Prop := Spells first second ∨ Spells second first

/-- Keys that differ are printed alike exactly if one spells the other. -/
theorem keyText?_eq_iff {first second : Value} (key : IsKey first) (differ : first.same second = false) :
    keyText? first = keyText? second ↔ Collide first second := by
  constructor
  · intro alike
    cases key with
    | string text =>
      cases second with
      | string other =>
        cases alike
        exact absurd differ (by simp [Value.same])
      | number n => cases alike; exact .inl (.number n)
      | bool b => cases alike; exact .inl (.bool b)
      | null | sequence | mapping | tagged => cases alike
    | number n =>
      cases second with
      | string other => cases alike; exact .inr (.number n)
      | number m => exact absurd (Yaml.Number.same_of_text (Option.some.inj alike)) (Bool.eq_false_iff.mp differ)
      | bool b => exact absurd (Option.some.inj alike) (n.text_ne_bool b)
      | null | sequence | mapping | tagged => cases alike
    | bool b =>
      cases second with
      | string other => cases alike; exact .inr (.bool b)
      | number n => exact absurd (Option.some.inj alike).symm (n.text_ne_bool b)
      | bool c =>
        have same : b = c := by
          cases b <;> cases c <;> first | rfl | exact absurd alike (by decide)
        exact absurd differ (by simp [Value.same,same])
      | null | sequence | mapping | tagged => cases alike
  · rintro (spells | spells)
    · cases spells <;> rfl
    · cases spells <;> rfl

/-- The messages that a locale file's value holds. An empty document has none. -/
def held : Value → Nat
  | .null => 0
  | value => leaves value

/-- Something holds of the keys of any two entries of a mapping and the value of the first. -/
def Between (holds : Value → Value → Value → Prop) (entries : List (Value × Value)) : Prop :=
  entries.Pairwise fun first later => holds first.1 later.1 first.2

/-- How a locale file's value and the tree that is read from it compare. -/
structure Counted (value : Value) (tree : Tree) : Prop where
  bounded : tree.messageCount ≤ held value
  complete : tree.messageCount = held value ↔
    Everywhere (Between fun first later content => Collide first later → leaves content = 0) value
  steady : Everywhere (Between fun first later _ => ¬Collide first later) value →
    ∀ other, Reordered value other → Tree.ofValue other = .ok tree

/-- The keys of a value that was read are keys. -/
theorem keys_of_node {value : Value} {found : Node} (read : node "" value = .ok found) :
    Everywhere (fun entries => ∀ entry ∈ entries, IsKey entry.1) value := by
  have blames : Blames (places [] value) (node "" value) := node_blames [] value
  rw [read] at blames
  intro entries reached
  exact ((faultless_iff [] value).mp blames _ reached).keys entries rfl

/-- Keys are printed alike where they collide, in a value that was read and has no key twice. -/
theorem everywhere_alike_iff {value : Value} {found : Node} (distinct : Distinct value)
    (read : node "" value = .ok found) (holds : Value → Prop) :
    Everywhere (Between fun first later content => keyText? first = keyText? later → holds content) value ↔
      Everywhere (Between fun first later content => Collide first later → holds content) value := by
  have keys := keys_of_node read
  have alike {entries : List (Value × Value)} (reached : Reaches value (.mapping entries)) :
      (Between (fun first later content => keyText? first = keyText? later → holds content) entries ↔
        Between (fun first later content => Collide first later → holds content) entries) := by
    have differ := distinct entries reached
    constructor
    · intro all
      refine (all.and differ).imp_of_mem ?_
      rintro first later member - ⟨same,apart⟩ collide
      exact same ((keyText?_eq_iff (keys entries reached first member) apart).mpr collide)
    · intro all
      refine (all.and differ).imp_of_mem ?_
      rintro first later member - ⟨same,apart⟩ printed
      exact same ((keyText?_eq_iff (keys entries reached first member) apart).mp printed)
  exact ⟨fun all entries reached => (alike reached).mp (all entries reached),
    fun all entries reached => (alike reached).mpr (all entries reached)⟩

/-- A tree never has more messages than the value that it is read from. It has all of them exactly if no entry with
messages comes before one whose key it spells or that spells its key, and without such keys the order of entries does
not matter. -/
theorem ofValue_counted {value : Value} {tree : Tree} (distinct : Distinct value)
    (read : Tree.ofValue value = .ok tree) : Counted value tree := by
  rcases Tree.ofValue_ok_iff.mp read with ⟨rfl,rfl⟩ | grouped
  · refine ⟨Nat.le_refl _,iff_of_true rfl Yaml.IsScalar.null.everywhere,fun _ other moved => ?_⟩
    rw [moved.null rfl]
    rfl
  · have filled : held value = leaves value := by
      cases value with
      | null => cases grouped
      | bool | number | string | sequence | mapping | tagged => rfl
    have count : tree.messageCount = kept value := node_kept grouped
    refine ⟨?_,?_,fun apart other moved => ?_⟩
    · rw [count,filled]
      exact kept_le value
    · rw [count,filled,kept_eq_iff]
      exact everywhere_alike_iff distinct grouped fun content => leaves content = 0
    · have printed := (everywhere_alike_iff distinct grouped fun _ => False).mpr apart
      exact Tree.ofValue_reordered moved printed read

theorem read_of_text {text : String} {tree : Tree} (read : (Tree.ofText text).toOption = some tree) :
    ∃ value, Value.ofText? text = some value ∧ Tree.ofValue value = .ok tree := by
  rw [Tree.ofText] at read
  cases parsed : Value.ofText? text with
  | none => rw [parsed] at read; cases read
  | some value =>
    rw [parsed] at read
    cases grown : Tree.ofValue value with
    | error fault => simp [grown,Except.toOption] at read
    | ok found =>
      simp only [grown,Except.toOption,Option.some.injEq] at read
      exact ⟨value,rfl,read ▸ grown⟩

/-- On different levels the same text may be a key twice. -/
theorem menu_counted : ∃ value tree, Value.ofText? "1: a\nmenu:\n  true: ~\n  '1': !t b\n" = some value ∧
    Tree.ofValue value = .ok tree ∧ tree.messageCount = 3 ∧ Counted value tree := by
  have read : (Tree.ofText "1: a\nmenu:\n  true: ~\n  '1': !t b\n").toOption =
      some (.message "1" "a" (.group "menu" (.message "1" "b" (.message "true" "" .empty)) .empty)) := by
    decide +kernel
  obtain ⟨value,parsed,grown⟩ := read_of_text read
  exact ⟨value,_,parsed,grown,rfl,ofValue_counted (Yaml.distinct_of_ofText? parsed) grown⟩

/-- A number and the string that spells it leave one message of two, and which one depends on their order. -/
theorem spelled_key_lost :
    (∃ value tree, Value.ofText? "1: a\n'1': b\n" = some value ∧ held value = 2 ∧
      Tree.ofValue value = .ok tree ∧ tree.messageCount = 1) ∧
    Tree.ofText "1: a\n'1': b\n" = .ok (.message "1" "b" .empty) ∧
    Tree.ofText "'1': b\n1: a\n" = .ok (.message "1" "a" .empty) := by
  have messages : (Value.ofText? "1: a\n'1': b\n").map held = some 2 := by decide +kernel
  have first : (Tree.ofText "1: a\n'1': b\n").toOption = some (.message "1" "b" .empty) := by decide +kernel
  have second : (Tree.ofText "'1': b\n1: a\n").toOption = some (.message "1" "a" .empty) := by decide +kernel
  have whole {text : String} {tree : Tree} (read : (Tree.ofText text).toOption = some tree) :
      Tree.ofText text = .ok tree := by
    obtain ⟨value,parsed,grown⟩ := read_of_text read
    rw [Tree.ofText,parsed]
    exact grown
  obtain ⟨value,parsed,grown⟩ := read_of_text first
  rw [parsed] at messages
  exact ⟨⟨value,_,parsed,Option.some.inj messages,grown,rfl⟩,whole first,whole second⟩

end Phrasebook.Locale
