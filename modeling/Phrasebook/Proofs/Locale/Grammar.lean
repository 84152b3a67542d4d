import Phrasebook.Locale.Reader
import Phrasebook.Proofs.Yaml.Distinct

/-! Which values are locales, and what is wrong with those that are not. Tags around values do not count. A locale is a
mapping, or null; in it there are mappings and scalars only, and the keys are strings, numbers and booleans without
tags. What is reported of a value is the first place in document order that does not fit: `ofValue_grammar`. -/
namespace Phrasebook.Locale

open Yaml (Value IsScalar Reaches)

/-- A value without the tags around it. -/
def untagged : Value → Value
  | .tagged _ value => untagged value
  | value => value

inductive IsMapping : Value → Prop where
  | mapping (entries : List (Value × Value)) : IsMapping (.mapping entries)

inductive IsList : Value → Prop where
  | sequence (items : List Value) : IsList (.sequence items)

inductive IsTagged : Value → Prop where
  | tagged (tag : String) (value : Value) : IsTagged (.tagged tag value)

/-- Strings, numbers and booleans without a tag. -/
inductive IsKey : Value → Prop where
  | string (text : String) : IsKey (.string text)
  | number (value : Yaml.Number) : IsKey (.number value)
  | bool (value : Bool) : IsKey (.bool value)

/-- The values that a locale is made of. -/
structure Fits (value : Value) : Prop where
  shape : IsScalar (untagged value) ∨ IsMapping (untagged value)
  keys : ∀ entries, value = .mapping entries → ∀ entry ∈ entries, IsKey entry.1

/-- The grammar of locales. -/
def IsLocale (value : Value) : Prop :=
  value = .null ∨ IsMapping (untagged value) ∧ ∀ found, Reaches value found → Fits found

/-- A key or a value, with the keys of the mappings around it from the outside in. -/
inductive Place where
  | key (above : List Value) (key : Value)
  | value (above : List Value) (value : Value)

mutual

/-- The places of a value in document order: those below a key come right after it. -/
def places (above : List Value) : Value → List Place
  | .tagged _ value => places above value
  | .mapping entries => .value above (.mapping entries) :: entryPlaces above entries
  | value => [.value above value]

def entryPlaces (above : List Value) : List (Value × Value) → List Place
  | [] => []
  | (key,value) :: rest => .key above key :: (places (above ++ [key]) value ++ entryPlaces above rest)

end

/-- Texts with dots between them, but for the empty ones at the front. -/
def joined (texts : List String) : String := String.intercalate "." (texts.dropWhile (·.isEmpty))

/-- The enclosing keys as they are printed. -/
def dotted (above : List Value) : String := joined (above.filterMap keyText?)

/-- What is wrong with a place, if anything. -/
def Place.complaint? : Place → Option String
  | .value above (.sequence _) => some ("'" ++ dotted above ++ "': lists are not supported")
  | .key _ (.string _) => none
  | .key _ (.number _) => none
  | .key _ (.bool _) => none
  | .key above _ => some ("'" ++ dotted above ++ "': keys must be scalars")
  | _ => none

theorem keyText?_isSome_iff {key : Value} : (keyText? key).isSome ↔ IsKey key := by
  cases key with
  | string text => exact ⟨fun _ => .string text,fun _ => rfl⟩
  | number n => exact ⟨fun _ => .number n,fun _ => rfl⟩
  | bool b => exact ⟨fun _ => .bool b,fun _ => rfl⟩
  | null | sequence | mapping | tagged => exact ⟨nofun,nofun⟩

theorem complaint?_key {above : List Value} {key : Value} : (Place.key above key).complaint? =
    if (keyText? key).isSome then none else some (Fault.key (dotted above)).message := by
  cases key <;> rfl

theorem intercalate_ne_empty {sep first : String} (full : first ≠ "") (rest : List String) :
    String.intercalate sep (first :: rest) ≠ "" := by
  cases rest with
  | nil => rwa [String.intercalate_singleton]
  | cons next rest =>
    rw [String.intercalate_cons_cons]
    simp [full]

/-- The path of a key is that of its mapping and the key. -/
theorem joined_concat (texts : List String) (text : String) :
    joined (texts ++ [text]) = childPath (joined texts) text := by
  induction texts with
  | nil =>
    by_cases empty : text = ""
    · rw [empty]; rfl
    · simp [joined,childPath,empty]
  | cons first rest ih =>
    by_cases empty : first = ""
    · have dropped (others : List String) : joined (first :: others) = joined others := by simp [joined,empty]
      rw [List.cons_append,dropped,dropped,ih]
    · have kept (others : List String) : joined (first :: others) = String.intercalate "." (first :: others) := by
        simp [joined,empty]
      have below : ¬(String.intercalate "." (first :: rest)).isEmpty = true := by
        simpa using intercalate_ne_empty empty rest
      rw [List.cons_append,kept,kept,childPath,if_neg below,← List.cons_append,
        String.intercalate_append_of_ne_nil (List.cons_ne_nil _ _) (List.cons_ne_nil _ _),
        String.intercalate_singleton]

theorem dotted_concat {above : List Value} {key : Value} {text : String} (printed : keyText? key = some text) :
    dotted (above ++ [key]) = childPath (dotted above) text := by
  have one : [key].filterMap keyText? = [text] := List.filterMap_cons_some printed
  rw [dotted,List.filterMap_append,one]
  exact joined_concat _ _

/-- Reading a value fails at the first place that does not fit, and only there. -/
def Blames {α : Type} (found : List Place) : Except Fault α → Prop
  | .ok _ => found.findSome? Place.complaint? = none
  | .error fault => found.findSome? Place.complaint? = some fault.message

mutual

theorem node_blames (above : List Value) (value : Value) : Blames (places above value) (node (dotted above) value) := by
  cases value with
  | null | bool | number | string | sequence => rfl
  | tagged tag value =>
    rw [node,places]
    exact node_blames above value
  | mapping entries =>
    have inner := group_blames above .empty entries
    rw [node,places]
    cases grouped : group (dotted above) .empty entries with
    | error fault => rw [grouped] at inner; exact inner
    | ok tree => rw [grouped] at inner; exact inner

theorem group_blames (above : List Value) (tree : Tree) (entries : List (Value × Value)) :
    Blames (entryPlaces above entries) (group (dotted above) tree entries) := by
  cases entries with
  | nil => rfl
  | cons entry rest =>
    obtain ⟨key,value⟩ := entry
    rw [group,entryPlaces]
    cases printed : keyText? key with
    | none =>
      change List.findSome? _ _ = _
      rw [List.findSome?_cons,complaint?_key,printed]
      rfl
    | some text =>
      have own : (Place.key above key).complaint? = none := by rw [complaint?_key,printed]; rfl
      -- The places below come before those of later entries, so a fault in the child ends the search.
      have child := node_blames (above ++ [key]) value
      rw [dotted_concat printed] at child
      simp only
      cases read : node (childPath (dotted above) text) value with
      | error fault =>
        rw [read] at child
        change List.findSome? _ _ = _
        rw [List.findSome?_cons,own,List.findSome?_append,child]
        rfl
      | ok found =>
        rw [read] at child
        have later := group_blames above (tree.insert text found) rest
        have rest_first : (Place.key above key :: (places (above ++ [key]) value ++ entryPlaces above rest)).findSome?
            Place.complaint? = (entryPlaces above rest).findSome? Place.complaint? := by
          rw [List.findSome?_cons,own,List.findSome?_append,child]
          rfl
        change Blames _ (group (dotted above) (tree.insert text found) rest)
        cases grouped : group (dotted above) (tree.insert text found) rest with
        | error fault =>
          rw [grouped] at later
          exact rest_first.trans later
        | ok tree =>
          rw [grouped] at later
          exact rest_first.trans later

end

theorem Fits.of_tagged {tag : String} {value : Value} : Fits (.tagged tag value) ↔
    IsScalar (untagged value) ∨ IsMapping (untagged value) :=
  ⟨fun fits => fits.shape,fun shape => ⟨shape,nofun⟩⟩

theorem Fits.not_list {items : List Value} : ¬Fits (.sequence items) := by
  rintro ⟨shape | shape,-⟩
  · cases shape
  · cases shape

theorem fits_of_scalar {value : Value} (scalar : IsScalar value) : Fits value := by
  cases scalar with
  | null => exact ⟨.inl .null,nofun⟩
  | bool value => exact ⟨.inl (.bool value),nofun⟩
  | number value => exact ⟨.inl (.number value),nofun⟩
  | string text => exact ⟨.inl (.string text),nofun⟩

mutual

/-- There is nothing to complain about exactly if all that can be reached fits. -/
theorem faultless_iff (above : List Value) (value : Value) :
    (places above value).findSome? Place.complaint? = none ↔ ∀ found, Reaches value found → Fits found := by
  have scalar {value : Value} (is_scalar : IsScalar value) : ∀ found, Reaches value found → Fits found := by
    intro found reached
    rw [reached.of_scalar is_scalar]
    exact fits_of_scalar is_scalar
  cases value with
  | null => exact iff_of_true rfl (scalar .null)
  | bool b => exact iff_of_true rfl (scalar (.bool b))
  | number n => exact iff_of_true rfl (scalar (.number n))
  | string text => exact iff_of_true rfl (scalar (.string text))
  | sequence items => exact iff_of_false nofun fun all => Fits.not_list (all _ (.here _))
  | tagged tag value =>
    rw [places,faultless_iff above value]
    constructor
    · intro all found reached
      cases reached with
      | here => exact Fits.of_tagged.mpr (all _ (.here _)).shape
      | tagged tag inside => exact all found inside
    · intro all found reached
      exact all found (.tagged tag reached)
  | mapping entries =>
    rw [places,List.findSome?_cons]
    change (entryPlaces above entries).findSome? Place.complaint? = none ↔ _
    rw [entries_faultless_iff above entries]
    constructor
    · intro all found reached
      cases reached with
      | here => exact ⟨.inr (.mapping entries),fun _ same entry member => by
          cases same
          exact (all entry.1 entry.2 member).1⟩
      | entry member inside => exact (all _ _ member).2 found inside
    · intro all key value member
      exact ⟨(all _ (.here _)).keys entries rfl _ member,fun found inside => all found (.entry member inside)⟩

theorem entries_faultless_iff (above : List Value) (entries : List (Value × Value)) :
    (entryPlaces above entries).findSome? Place.complaint? = none ↔
      ∀ key value, (key,value) ∈ entries → IsKey key ∧ ∀ found, Reaches value found → Fits found := by
  cases entries with
  | nil => exact iff_of_true rfl nofun
  | cons entry rest =>
    obtain ⟨key,value⟩ := entry
    have first : (Place.key above key).complaint? = none ↔ IsKey key := by
      rw [complaint?_key,← keyText?_isSome_iff]
      split <;> simp_all
    rw [entryPlaces,List.findSome?_eq_none_iff,List.forall_mem_cons,List.forall_mem_append,first,
      ← List.findSome?_eq_none_iff,← List.findSome?_eq_none_iff,faultless_iff (above ++ [key]) value,
      entries_faultless_iff above rest]
    constructor
    · rintro ⟨own,here,later⟩ other found member
      rcases List.mem_cons.mp member with same | member
      · cases same
        exact ⟨own,here⟩
      · exact later other found member
    · intro all
      obtain ⟨own,here⟩ := all key value List.mem_cons_self
      exact ⟨own,here,fun other found member => all other found (List.mem_cons_of_mem _ member)⟩

end

/-- A value without tags around it is a scalar, a mapping or a list. -/
theorem untagged_cases (value : Value) :
    IsScalar (untagged value) ∨ IsMapping (untagged value) ∨ IsList (untagged value) := by
  induction value using untagged.induct with
  | case1 tag value ih => exact ih
  | case2 value bare =>
    cases value with
    | null => exact .inl .null
    | bool b => exact .inl (.bool b)
    | number n => exact .inl (.number n)
    | string text => exact .inl (.string text)
    | sequence items => exact .inr (.inr (.sequence items))
    | mapping entries => exact .inr (.inl (.mapping entries))
    | tagged tag value => exact absurd rfl (bare tag value)

theorem scalar_not_mapping {value : Value} (scalar : IsScalar value) : ¬IsMapping value := by
  intro mapping
  cases mapping
  cases scalar

theorem scalar_not_list {value : Value} (scalar : IsScalar value) : ¬IsList value := by
  intro list
  cases list
  cases scalar

/-- A scalar becomes a message, and all that becomes one is a scalar below its tags. -/
theorem node_message_iff {path : String} {value : Value} :
    (∃ text, node path value = .ok (.message text)) ↔ IsScalar (untagged value) := by
  induction value using untagged.induct with
  | case1 tag value ih =>
    rw [node,untagged]
    exact ih
  | case2 value bare =>
    cases value with
    | null => exact iff_of_true ⟨_,rfl⟩ .null
    | bool b => exact iff_of_true ⟨_,rfl⟩ (.bool b)
    | number n => exact iff_of_true ⟨_,rfl⟩ (.number n)
    | string text => exact iff_of_true ⟨_,rfl⟩ (.string text)
    | sequence items => exact iff_of_false nofun nofun
    | tagged tag value => exact absurd rfl (bare tag value)
    | mapping entries =>
      refine iff_of_false ?_ nofun
      rintro ⟨text,read⟩
      rw [node] at read
      cases grouped : group path .empty entries <;> rw [grouped] at read <;> cases read

/-- A list is refused at its own path, whatever its tags. -/
theorem node_list {path : String} {value : Value} (list : IsList (untagged value)) :
    node path value = .error (.list path) := by
  induction value using untagged.induct with
  | case1 tag value ih =>
    rw [node]
    exact ih list
  | case2 value bare =>
    cases value with
    | sequence items => rfl
    | tagged tag value => exact absurd rfl (bare tag value)
    | null | bool | number | string | mapping => cases list

/-- The values in which an offender is named: mappings, and lists under a tag. -/
def IsSearched (value : Value) : Prop :=
  IsMapping (untagged value) ∨ IsTagged value ∧ IsList (untagged value)

/-- What reading a locale comes to: which values are taken, and what is said of the others. -/
structure Judged (value : Value) : Prop where
  accepted : (∃ tree, Tree.ofValue value = .ok tree) ↔ IsLocale value
  blamed : ∀ fault, Tree.ofValue value = .error fault → IsSearched value →
    (places [] value).findSome? Place.complaint? = some fault.message
  refused : ∀ fault, Tree.ofValue value = .error fault → ¬IsSearched value →
    fault.message = "top level must be a mapping"

/-- Values that are neither mappings nor tagged are refused without being searched. -/
theorem Judged.of_refused {value : Value} (refused : Tree.ofValue value = .error .notMapping)
    (filled : value ≠ .null) (shape : ¬IsSearched value) : Judged value := by
  constructor
  · rw [refused]
    refine iff_of_false nofun ?_
    rintro (null | ⟨mapping,-⟩)
    · exact filled null
    · exact shape (.inl mapping)
  · intro fault _ searched
    exact absurd searched shape
  · intro fault same _
    rw [refused] at same
    cases same
    rfl

/-- The tree of a group; messages have none. -/
def Node.toTree : Node → Except Fault Tree
  | .group tree => .ok tree
  | .message _ => .error .notMapping

theorem Tree.ofValue_eq {value : Value} (collectible : isCollectible value = true) :
    Tree.ofValue value = node "" value >>= Node.toTree := by
  cases value with
  | null | bool | number | string | sequence => cases collectible
  | mapping | tagged => rfl

/-- Mappings and tagged values are searched from the top. -/
theorem Judged.of_collectible {value : Value} (collectible : isCollectible value = true) : Judged value := by
  have filled : value ≠ .null := by
    intro null
    rw [null] at collectible
    cases collectible
  have unfolded := Tree.ofValue_eq collectible
  have blames : Blames (places [] value) (node "" value) := node_blames [] value
  rcases untagged_cases value with scalar | searched
  · obtain ⟨text,read⟩ := node_message_iff.mpr scalar
    rw [read] at unfolded
    refine .of_refused unfolded filled ?_
    rintro (mapping | ⟨-,list⟩)
    · exact scalar_not_mapping scalar mapping
    · exact scalar_not_list scalar list
  · have searchable : IsSearched value := by
      rcases searched with mapping | list
      · exact .inl mapping
      · refine .inr ⟨?_,list⟩
        cases value with
        | tagged tag value => exact .tagged tag value
        | null | bool | number | string | sequence | mapping => cases collectible <;> cases list
    cases read : node "" value with
    | error fault =>
      rw [read] at unfolded blames
      refine ⟨?_,?_,?_⟩
      · rw [unfolded]
        refine iff_of_false nofun ?_
        rintro (null | ⟨-,all⟩)
        · exact filled null
        · have faultless := (faultless_iff [] value).mpr all
          rw [blames] at faultless
          cases faultless
      · intro found same _
        rw [unfolded] at same
        cases same
        exact blames
      · intro found _ unsearched
        exact absurd searchable unsearched
    | ok found =>
      rw [read] at unfolded blames
      cases found with
      | message text =>
        have scalar := node_message_iff.mp ⟨text,read⟩
        rcases searched with mapping | list
        · exact absurd mapping (scalar_not_mapping scalar)
        · exact absurd list (scalar_not_list scalar)
      | group tree =>
        have mapping : IsMapping (untagged value) := by
          rcases searched with mapping | list
          · exact mapping
          · rw [node_list list] at read
            cases read
        refine ⟨?_,?_,?_⟩
        · exact iff_of_true ⟨tree,unfolded⟩ (.inr ⟨mapping,(faultless_iff [] value).mp blames⟩)
        · intro fault failed _
          rw [unfolded] at failed
          cases failed
        · intro fault failed _
          rw [unfolded] at failed
          cases failed

/-- A value is taken exactly if it is a locale. Of the others, a mapping or a tagged list is blamed for its first
offender, and what else is refused is said not to be a mapping. -/
theorem ofValue_grammar (value : Value) : Judged value := by
  cases value with
  | null =>
    refine ⟨iff_of_true ⟨.empty,rfl⟩ (.inl rfl),?_,?_⟩
    · intro fault failed _
      cases failed
    · intro fault failed _
      cases failed
  | bool b => exact .of_refused rfl nofun (by rintro (mapping | ⟨tag,-⟩) <;> contradiction)
  | number n => exact .of_refused rfl nofun (by rintro (mapping | ⟨tag,-⟩) <;> contradiction)
  | string text => exact .of_refused rfl nofun (by rintro (mapping | ⟨tag,-⟩) <;> contradiction)
  | sequence items => exact .of_refused rfl nofun (by rintro (mapping | ⟨tag,-⟩) <;> contradiction)
  | mapping entries => exact .of_collectible rfl
  | tagged tag value => exact .of_collectible rfl

/-- Empty keys are left out in front and stay behind: the list below is the first offender. -/
example : Tree.ofValue (.tagged "!l" (.mapping [(.string "",.mapping [(.string "menu",.mapping [(.string "",
    .sequence [])]),(.null,.null)])])) = .error (.list "menu.") := by
  rfl

end Phrasebook.Locale
