import Phrasebook.Shape

/-! The merged shape has a message exactly where some locale has one, with the placeholders of all of
them: `ofEntries_covers`. -/
namespace Phrasebook
open Std

theorem Sorted.mem_add {x key : String} {keys : List String} : x ∈ add key keys ↔ x = key ∨ x ∈ keys := by
  induction keys with
  | nil => simp [add]
  | cons k rest ih =>
    rw [add]
    split
    · simp
    next same =>
      obtain rfl := LawfulEqOrd.compare_eq_iff_eq.mp same
      simp
    · simp only [List.mem_cons,ih,or_left_comm]

namespace Locale.Tree

/-- Every message with the keys that lead to it. -/
def messages : Tree → List (List String × String)
  | .empty => []
  | .message key text rest => ([key],text) :: messages rest
  | .group key inner rest => (messages inner).map (fun (path,text) => (key :: path,text)) ++ messages rest

/-- A message stands at the path, with this placeholder if one is given. -/
def Covers (tree : Tree) (path : List String) (name : Option String) : Prop :=
  ∃ text, (path,text) ∈ tree.messages ∧ ∀ x ∈ name, x ∈ Message.parameters text

variable {key text : String} {inner rest : Tree} {path : List String} {name : Option String}

theorem not_covers_empty : ¬(empty.Covers path name) := by simp [Covers,messages]

theorem covers_message : (message key text rest).Covers path name ↔
    path = [key] ∧ (∀ x ∈ name, x ∈ Message.parameters text) ∨ rest.Covers path name := by
  simp only [Covers,messages,List.mem_cons,Prod.mk.injEq,or_and_right,exists_or]
  refine or_congr_left ⟨?_,fun ⟨here,held⟩ => ⟨text,⟨here,rfl⟩,held⟩⟩
  rintro ⟨_,⟨here,rfl⟩,held⟩
  exact ⟨here,held⟩

theorem covers_group : (group key inner rest).Covers path name ↔
    (∃ below, path = key :: below ∧ inner.Covers below name) ∨ rest.Covers path name := by
  simp only [Covers,messages,List.mem_append,List.mem_map,or_and_right,exists_or]
  refine or_congr_left ⟨?_,?_⟩
  · rintro ⟨text,⟨⟨below,_⟩,member,same⟩,held⟩
    obtain ⟨rfl,rfl⟩ := Prod.mk.inj same
    exact ⟨below,rfl,_,member,held⟩
  · rintro ⟨below,rfl,text,member,held⟩
    exact ⟨text,⟨_,member,rfl⟩,held⟩

end Locale.Tree

namespace Shape

theorem mem_collect {x : String} {params names : List String} :
    x ∈ collect params names ↔ x ∈ params ∨ x ∈ names := by
  induction names generalizing params with
  | nil => simp [collect]
  | cons name rest ih =>
    have added : x ∈ collect (Sorted.add name params) rest ↔ x ∈ Sorted.add name params ∨ x ∈ rest := ih
    rw [collect,List.foldl_cons,← collect,added,Sorted.mem_add,List.mem_cons,or_comm (a := x = name),or_assoc]

/-- What stands under a key. -/
inductive Field where
  | message (count : Nat) (params : List String)
  | group (count : Nat) (inner : Shape)

def get? (key : String) : Shape → Option Field
  | .empty => none
  | .message k count params rest => if key = k then some (.message count params) else get? key rest
  | .group k count inner rest => if key = k then some (.group count inner) else get? key rest

/-- The first key of the level, if any, comes after this one. -/
def After (key : String) : Shape → Prop
  | .empty => True
  | .message k _ _ _ => compare key k = .lt
  | .group k _ _ _ => compare key k = .lt

/-- On every level the keys ascend. -/
def Ordered : Shape → Prop
  | .empty => True
  | .message key _ _ rest => rest.After key ∧ rest.Ordered
  | .group key _ inner rest => rest.After key ∧ inner.Ordered ∧ rest.Ordered

variable {shape shape' fields : Shape} {key other low : String} {names : List String}

theorem After.trans (less : compare low key = .lt) (after : shape.After key) : shape.After low := by
  cases shape with
  | empty => trivial
  | message => exact TransCmp.lt_trans less after
  | group => exact TransCmp.lt_trans less after

theorem ne_of_compare_lt (less : compare key other = .lt) : key ≠ other := by
  rintro rfl
  simp [ReflOrd.compare_self] at less

theorem get?_of_after (ordered : shape.Ordered) (after : shape.After key) : shape.get? key = none := by
  induction shape with
  | empty => rfl
  | message k count params rest ih =>
    rw [get?,if_neg (ne_of_compare_lt after)]
    exact ih ordered.2 (ordered.1.trans after)
  | group k count inner rest _ ih =>
    rw [get?,if_neg (ne_of_compare_lt after)]
    exact ih ordered.2.2 (ordered.1.trans after)

theorem inner?_eq (key : String) (shape : Shape) : shape.inner? key =
    match shape.get? key with
    | none => some .empty
    | some (.message _ _) => none
    | some (.group _ inner) => some inner := by
  induction shape with
  | empty => rfl
  | message k count params rest ih => rw [inner?,get?]; split <;> simp [ih]
  | group k count inner rest _ ih => rw [inner?,get?]; split <;> simp [ih]

/-- A message field once one more locale with these placeholders has been counted. -/
def Field.counted? (names : List String) : Option Field → Option Field
  | none => some (.message 1 (collect [] names))
  | some (.message count params) => some (.message (count + 1) (collect params names))
  | some (.group _ _) => none

/-- A group field with new contents once one more locale has been counted. -/
def Field.regrouped (fields : Shape) : Option Field → Field
  | some (.group count _) => .group (count + 1) fields
  | _ => .group 1 fields

/-- One field of an ordered level has changed, or is new. -/
structure Updated (shape : Shape) (key : String) (field : Field) (shape' : Shape) : Prop where
  ordered : shape'.Ordered
  after : ∀ {low}, compare low key = .lt → shape.After low → shape'.After low
  get? : ∀ other, shape'.get? other = if other = key then some field else shape.get? other

namespace Updated

variable {field : Field} {rest rest' inner : Shape} {k : String} {count : Nat} {params : List String}

theorem message_front (ordered : shape.Ordered) (after : shape.After key) :
    Updated shape key (.message count params) (.message key count params shape) where
  ordered := ⟨after,ordered⟩
  after less _ := less
  get? _ := rfl

theorem group_front (ordered : shape.Ordered) (below : inner.Ordered) (after : shape.After key) :
    Updated shape key (.group count inner) (.group key count inner shape) where
  ordered := ⟨after,below,ordered⟩
  after less _ := less
  get? _ := rfl

theorem message_at {c : Nat} {p : List String} (ordered : (message key c p rest).Ordered) :
    Updated (.message key c p rest) key (.message count params) (.message key count params rest) where
  ordered := ordered
  after less _ := less
  get? other := by simp only [Shape.get?]; split <;> rfl

theorem group_at {c : Nat} {old : Shape} (ordered : (group key c old rest).Ordered) (below : inner.Ordered) :
    Updated (.group key c old rest) key (.group count inner) (.group key count inner rest) where
  ordered := ⟨ordered.1,below,ordered.2.2⟩
  after less _ := less
  get? other := by simp only [Shape.get?]; split <;> rfl

theorem under_message (less : compare k key = .lt) (ordered : (message k count params rest).Ordered)
    (updated : Updated rest key field rest') :
    Updated (.message k count params rest) key field (.message k count params rest') where
  ordered := ⟨updated.after less ordered.1,updated.ordered⟩
  after _ before := before
  get? other := by
    have differ := ne_of_compare_lt less
    simp only [Shape.get?,updated.get?]
    by_cases here : other = key
    · simp [here,Ne.symm differ]
    · simp [here]

theorem under_group (less : compare k key = .lt) (ordered : (group k count inner rest).Ordered)
    (updated : Updated rest key field rest') :
    Updated (.group k count inner rest) key field (.group k count inner rest') where
  ordered := ⟨updated.after less ordered.1,ordered.2.1,updated.ordered⟩
  after _ before := before
  get? other := by
    have differ := ne_of_compare_lt less
    simp only [Shape.get?,updated.get?]
    by_cases here : other = key
    · simp [here,Ne.symm differ]
    · simp [here]

end Updated

theorem get?_message_of_gt {k : String} {count : Nat} {params : List String} {rest : Shape}
    (greater : compare key k = .gt) : (message k count params rest).get? key = rest.get? key :=
  if_neg (ne_of_compare_lt (OrientedCmp.lt_of_gt greater)).symm

theorem get?_group_of_gt {k : String} {count : Nat} {inner rest : Shape} (greater : compare key k = .gt) :
    (group k count inner rest).get? key = rest.get? key :=
  if_neg (ne_of_compare_lt (OrientedCmp.lt_of_gt greater)).symm

theorem addMessage?_updated (ordered : shape.Ordered) (added : shape.addMessage? key names = some shape') :
    ∃ field ∈ Field.counted? names (shape.get? key), Updated shape key field shape' := by
  induction shape generalizing shape' with
  | empty => cases added; exact ⟨_,rfl,.message_front trivial trivial⟩
  | message k count params rest ih =>
    rw [addMessage?] at added
    split at added
    next less =>
      cases added
      rw [get?_of_after ordered less]
      exact ⟨_,rfl,.message_front ordered less⟩
    next same =>
      obtain rfl := LawfulEqOrd.compare_eq_iff_eq.mp same
      cases added
      rw [get?,if_pos rfl]
      exact ⟨_,rfl,.message_at ordered⟩
    next greater =>
      obtain ⟨rest',step,rfl⟩ := Option.map_eq_some_iff.mp added
      obtain ⟨field,counted,updated⟩ := ih ordered.2 step
      rw [get?_message_of_gt greater]
      exact ⟨field,counted,.under_message (OrientedCmp.lt_of_gt greater) ordered updated⟩
  | group k count inner rest _ ih =>
    rw [addMessage?] at added
    split at added
    next less =>
      cases added
      rw [get?_of_after ordered less]
      exact ⟨_,rfl,.message_front ordered less⟩
    next => contradiction
    next greater =>
      obtain ⟨rest',step,rfl⟩ := Option.map_eq_some_iff.mp added
      obtain ⟨field,counted,updated⟩ := ih ordered.2.2 step
      rw [get?_group_of_gt greater]
      exact ⟨field,counted,.under_group (OrientedCmp.lt_of_gt greater) ordered updated⟩

/-- Only where no message stands is a group put. -/
theorem putGroup_updated (ordered : shape.Ordered) (below : fields.Ordered)
    (fits : ∀ count params, shape.get? key ≠ some (.message count params)) :
    Updated shape key (.regrouped fields (shape.get? key)) (putGroup key fields shape) := by
  induction shape with
  | empty => exact .group_front trivial below trivial
  | message k count params rest ih =>
    rw [putGroup]
    split
    next less =>
      rw [get?_of_after ordered less]
      exact .group_front ordered below less
    next notLess =>
      have greater : compare key k = .gt := by
        cases order : compare key k with
        | lt => exact absurd order notLess
        | eq =>
          obtain rfl := LawfulEqOrd.compare_eq_iff_eq.mp order
          exact absurd (if_pos rfl) (fits count params)
        | gt => rfl
      rw [get?_message_of_gt greater] at fits ⊢
      exact .under_message (OrientedCmp.lt_of_gt greater) ordered (ih ordered.2 fits)
  | group k count inner rest _ ih =>
    rw [putGroup]
    split
    next less =>
      rw [get?_of_after ordered less]
      exact .group_front ordered below less
    next same =>
      obtain rfl := LawfulEqOrd.compare_eq_iff_eq.mp same
      rw [get?,if_pos rfl]
      exact .group_at ordered below
    next greater =>
      rw [get?_group_of_gt greater] at fits ⊢
      exact .under_group (OrientedCmp.lt_of_gt greater) ordered (ih ordered.2.2 fits)

/-- The placeholders of the message at a path. -/
def params? : List String → Shape → Option (List String)
  | [],_ => none
  | key :: below,shape =>
    match shape.get? key with
    | none => none
    | some (.message _ params) => if below.isEmpty then some params else none
    | some (.group _ inner) => params? below inner

/-- A message stands at the path, with this placeholder if one is given. -/
def Covers (shape : Shape) (path : List String) (name : Option String) : Prop :=
  ∃ params, shape.params? path = some params ∧ ∀ x ∈ name, x ∈ params

/-- Every message with the keys that lead to it. -/
def messages : Shape → List (List String × List String)
  | .empty => []
  | .message key _ params rest => ([key],params) :: messages rest
  | .group key _ inner rest => (messages inner).map (fun (path,params) => (key :: path,params)) ++ messages rest

/-- What a field contributes to the paths below its key. -/
def Field.Covers (below : List String) (name : Option String) : Field → Prop
  | .message _ params => below = [] ∧ ∀ x ∈ name, x ∈ params
  | .group _ inner => inner.Covers below name

variable {path below : List String} {name : Option String}

theorem not_covers_nil : ¬(shape.Covers [] name) := by simp [Covers,params?]

theorem covers_cons : shape.Covers (key :: below) name ↔ ∃ field ∈ shape.get? key, field.Covers below name := by
  rw [Covers,params?]
  cases shape.get? key with
  | none => simp
  | some field =>
    cases field with
    | message count params => cases below <;> simp [Field.Covers]
    | group count inner => simp [Field.Covers,Covers]

theorem Updated.covers {field : Field} (updated : Updated shape key field shape') :
    shape'.Covers path name ↔ (∃ below, path = key :: below ∧ field.Covers below name) ∨
      (path.head? ≠ some key ∧ shape.Covers path name) := by
  cases path with
  | nil => simp [not_covers_nil]
  | cons first below =>
    rw [covers_cons,covers_cons,updated.get?]
    by_cases here : first = key
    · simp [here]
    · simp [here]

theorem addMessage?_covers (ordered : shape.Ordered) (added : shape.addMessage? key names = some shape') :
    shape'.Covers path name ↔ shape.Covers path name ∨ path = [key] ∧ ∀ x ∈ name, x ∈ names := by
  obtain ⟨field,counted,updated⟩ := addMessage?_updated ordered added
  rw [updated.covers]
  cases path with
  | nil => simp [not_covers_nil]
  | cons first below =>
    by_cases here : first = key
    · subst first
      have covered : field.Covers below name ↔
          shape.Covers (key :: below) name ∨ below = [] ∧ ∀ x ∈ name, x ∈ names := by
        rw [covers_cons]
        cases found : shape.get? key with
        | none =>
          rw [found] at counted
          cases counted
          simp [Field.Covers,mem_collect]
        | some old =>
          rw [found] at counted
          cases old with
          | group => cases counted
          | message count params =>
            cases counted
            cases name <;> simp [Field.Covers,mem_collect,← and_or_left]
      simp [covered]
    · simp [here]

theorem ordered_inner? (ordered : shape.Ordered) (found : shape.inner? key = some fields) : fields.Ordered := by
  induction shape with
  | empty => cases found; trivial
  | message k count params rest ih =>
    rw [inner?] at found
    split at found
    · cases found
    · exact ih ordered.2 found
  | group k count inner rest _ ih =>
    rw [inner?] at found
    split at found
    · cases found; exact ordered.2.1
    · exact ih ordered.2.2 found

theorem fits_of_inner? (found : shape.inner? key = some fields) (count : Nat) (params : List String) :
    shape.get? key ≠ some (.message count params) := by
  intro message
  rw [inner?_eq,message] at found
  cases found

theorem covers_inner? (found : shape.inner? key = some fields) :
    shape.Covers (key :: below) name ↔ fields.Covers below name := by
  rw [inner?_eq] at found
  rw [covers_cons]
  cases field : shape.get? key with
  | none =>
    rw [field] at found
    cases found
    cases below <;> simp [Covers,params?,get?]
  | some old =>
    rw [field] at found
    cases old with
    | message => cases found
    | group => cases found; simp [Field.Covers]

/-- Adding a group whose fields cover what they covered before and something more. -/
theorem putGroup_covers {more : List String → Option String → Prop} (ordered : shape.Ordered)
    (found : shape.inner? key = some fields) {fields' : Shape} (below : fields'.Ordered)
    (covers : ∀ path name, fields'.Covers path name ↔ fields.Covers path name ∨ more path name) :
    (putGroup key fields' shape).Covers path name ↔
      shape.Covers path name ∨ ∃ below, path = key :: below ∧ more below name := by
  rw [(putGroup_updated ordered below (fits_of_inner? found)).covers]
  cases path with
  | nil => simp [not_covers_nil]
  | cons first below =>
    by_cases here : first = key
    · subst first
      have regrouped :
          (Field.regrouped fields' (shape.get? key)).Covers below name ↔ fields'.Covers below name := by
        cases shape.get? key with
        | none => rfl
        | some old => cases old <;> rfl
      simp [regrouped,covers,covers_inner? found]
    · simp [here]

theorem params?_message {k : String} {count : Nat} {p : List String} {rest : Shape} :
    (message k count p rest).params? path =
      if path.head? = some k then (if path = [k] then some p else none) else rest.params? path := by
  cases path with
  | nil => rfl
  | cons key below =>
    by_cases here : key = k
    · cases below <;> simp [params?,get?,here]
    · simp [params?,get?,here]

theorem params?_group {k : String} {count : Nat} {inner rest : Shape} :
    (group k count inner rest).params? path =
      if path.head? = some k then inner.params? path.tail else rest.params? path := by
  cases path with
  | nil => rfl
  | cons key below =>
    by_cases here : key = k
    · simp [params?,get?,here]
    · simp [params?,get?,here]

theorem params?_of_after {key : String} {below : List String} (ordered : shape.Ordered) (after : shape.After key) :
    shape.params? (key :: below) = none := by
  rw [params?,get?_of_after ordered after]

theorem mem_messages {params : List String} (ordered : shape.Ordered) :
    (path,params) ∈ shape.messages ↔ shape.params? path = some params := by
  induction shape generalizing path with
  | empty => cases path <;> simp [messages,params?,get?]
  | message key count p rest ih =>
    rw [messages,List.mem_cons,ih ordered.2,params?_message]
    split
    next here =>
      obtain ⟨below,rfl⟩ : ∃ below, path = key :: below := List.head?_eq_some_iff.mp here
      rw [params?_of_after ordered.2 ordered.1]
      cases below <;> simp [eq_comm]
    next elsewhere =>
      have differ : path ≠ [key] := by rintro rfl; exact elsewhere rfl
      simp [differ]
  | group key count inner rest ihInner ih =>
    rw [messages,List.mem_append,ih ordered.2.2,params?_group]
    split
    next here =>
      obtain ⟨below,rfl⟩ : ∃ below, path = key :: below := List.head?_eq_some_iff.mp here
      rw [params?_of_after ordered.2.2 ordered.1]
      simp [ihInner ordered.2.1]
    next elsewhere =>
      rw [List.mem_map]
      apply or_iff_right
      rintro ⟨_,_,same⟩
      obtain ⟨rfl,rfl⟩ := Prod.mk.inj same
      exact elsewhere rfl

/-- The merged fields cover what they covered before and what the tree covers. -/
theorem merge_covers {tree : Locale.Tree} {parent : String} (ordered : shape.Ordered)
    (merged : merge parent shape tree = .ok shape') : shape'.Ordered ∧
      ∀ path name, shape'.Covers path name ↔ shape.Covers path name ∨ tree.Covers path name := by
  induction tree generalizing parent shape shape' with
  | empty =>
    cases merged
    exact ⟨ordered,fun path name => by simp [Locale.Tree.not_covers_empty]⟩
  | message key text rest ih =>
    rw [merge] at merged
    split at merged
    next added step =>
      obtain ⟨field,-,updated⟩ := addMessage?_updated ordered step
      obtain ⟨ordered',covers⟩ := ih updated.ordered merged
      refine ⟨ordered',?_⟩
      intro path name
      rw [covers,addMessage?_covers ordered step,Locale.Tree.covers_message,or_assoc]
    next => contradiction
  | group key inner rest ihInner ih =>
    rw [merge] at merged
    split at merged
    next => contradiction
    next fields found =>
      cases step : merge (Locale.childPath parent key) fields inner with
      | error clash =>
        rw [step] at merged
        cases merged
      | ok fields' =>
        rw [step] at merged
        obtain ⟨below,inside⟩ := ihInner (ordered_inner? ordered found) step
        obtain ⟨ordered',covers⟩ := ih (putGroup_updated ordered below (fits_of_inner? found)).ordered merged
        refine ⟨ordered',?_⟩
        intro path name
        rw [covers,putGroup_covers ordered found below inside,Locale.Tree.covers_group,or_assoc]

theorem mergeAll_covers {entries : List Locale.Entry} (ordered : shape.Ordered)
    (merged : mergeAll shape entries = .ok shape') : shape'.Ordered ∧ ∀ path name,
      shape'.Covers path name ↔ shape.Covers path name ∨ ∃ entry ∈ entries, entry.tree.Covers path name := by
  induction entries generalizing shape with
  | nil => cases merged; exact ⟨ordered,by simp⟩
  | cons entry rest ih =>
    rw [mergeAll] at merged
    split at merged
    next one step =>
      obtain ⟨between,first⟩ := merge_covers ordered step
      obtain ⟨last,others⟩ := ih between merged
      exact ⟨last,fun path name => by simp [others,first,or_assoc]⟩
    next => contradiction

/-- The shape of all locales covers what each of them covers. -/
theorem ofEntries_covers {entries : List Locale.Entry} (merged : ofEntries entries = .ok shape) :
    shape.Ordered ∧ ∀ path name, shape.Covers path name ↔ ∃ entry ∈ entries, entry.tree.Covers path name := by
  obtain ⟨ordered,covers⟩ := mergeAll_covers (show Ordered .empty from trivial) merged
  refine ⟨ordered,fun path name => (covers path name).trans ?_⟩
  cases path <;> simp [Covers,params?,get?]

variable {entries : List Locale.Entry} {params : List String}

/-- A message of the merged shape has the placeholders of all its translations. -/
theorem mem_params_of_ofEntries (merged : ofEntries entries = .ok shape) (member : (path,params) ∈ shape.messages)
    {x : String} : x ∈ params ↔
      ∃ entry ∈ entries, ∃ text, (path,text) ∈ entry.tree.messages ∧ x ∈ Message.parameters text := by
  obtain ⟨ordered,covers⟩ := ofEntries_covers merged
  have found : shape.params? path = some params := (mem_messages ordered).mp member
  have covered : shape.Covers path (some x) ↔ x ∈ params := by simp [Covers,found]
  rw [← covered,covers]
  simp [Locale.Tree.Covers]

theorem exists_message_of_ofEntries (merged : ofEntries entries = .ok shape) {entry : Locale.Entry} {text : String}
    (listed : entry ∈ entries) (message : (path,text) ∈ entry.tree.messages) :
    ∃ params, (path,params) ∈ shape.messages := by
  obtain ⟨ordered,covers⟩ := ofEntries_covers merged
  have covered : entry.tree.Covers path none := ⟨text,message,by simp⟩
  obtain ⟨params,found,-⟩ := (covers path none).mpr ⟨entry,listed,covered⟩
  exact ⟨params,(mem_messages ordered).mpr found⟩

theorem params_unique_of_ofEntries (merged : ofEntries entries = .ok shape) {others : List String}
    (member : (path,params) ∈ shape.messages) (again : (path,others) ∈ shape.messages) : params = others := by
  have ordered := (ofEntries_covers merged).1
  rw [mem_messages ordered] at member again
  exact Option.some.inj (member.symm.trans again)

end Shape
end Phrasebook
