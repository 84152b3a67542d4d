import Phrasebook.Yaml.Document

/-! Values that are read from a text hold no key twice in a mapping: `distinct_of_ofText?`. -/
namespace Phrasebook.Yaml

inductive IsScalar : Value → Prop where
  | null : IsScalar .null
  | bool (value : Bool) : IsScalar (.bool value)
  | number (value : Number) : IsScalar (.number value)
  | string (text : String) : IsScalar (.string text)

/-- A value stands somewhere in another one, below mappings and tags. -/
inductive Reaches : Value → Value → Prop where
  | here (value : Value) : Reaches value value
  | tagged {value found : Value} (tag : String) (inside : Reaches value found) : Reaches (.tagged tag value) found
  | entry {entries : List (Value × Value)} {key value found : Value} (member : (key,value) ∈ entries)
      (inside : Reaches value found) : Reaches (.mapping entries) found

theorem Reaches.of_scalar {value found : Value} (scalar : IsScalar value) (reached : Reaches value found) :
    found = value := by
  cases scalar <;> cases reached <;> rfl

/-- Something holds of the entries of every mapping in a value. -/
def Everywhere (holds : List (Value × Value) → Prop) (value : Value) : Prop :=
  ∀ entries, Reaches value (.mapping entries) → holds entries

/-- No key of a mapping is there twice. -/
def Distinct : Value → Prop := Everywhere fun entries => entries.Pairwise fun first later => first.1.same later.1 = false

section Everywhere

variable {holds : List (Value × Value) → Prop}

theorem IsScalar.everywhere {value : Value} (scalar : IsScalar value) : Everywhere holds value := by
  intro entries reached
  rw [← reached.of_scalar scalar] at scalar
  cases scalar

theorem everywhere_tagged {tag : String} {value : Value} : Everywhere holds (.tagged tag value) ↔ Everywhere holds value := by
  constructor
  · intro all entries reached
    exact all entries (.tagged tag reached)
  · intro all entries reached
    cases reached with
    | tagged _ inside => exact all entries inside

theorem everywhere_mapping {entries : List (Value × Value)} : Everywhere holds (.mapping entries) ↔
    holds entries ∧ ∀ entry ∈ entries, Everywhere holds entry.2 := by
  constructor
  · intro all
    exact ⟨all entries (.here _),fun entry member inner reached => all inner (.entry member reached)⟩
  · rintro ⟨own,below⟩ inner reached
    cases reached with
    | here => exact own
    | entry member inside => exact below _ member inner inside

end Everywhere

namespace Node

variable {α β σ : Type}

theorem bind_inv {x : StateT σ Option α} {f : α → StateT σ Option β} {s s' : σ} {b : β}
    (ran : (x >>= f) s = some (b,s')) : ∃ a middle, x s = some (a,middle) ∧ f a middle = some (b,s') := by
  obtain ⟨⟨a,middle⟩,first,second⟩ := Option.bind_eq_some_iff.mp ran
  exact ⟨a,middle,first,second⟩

theorem pure_inv {s s' : σ} {a b : α} (ran : (pure a : StateT σ Option α) s = some (b,s')) : a = b := by
  cases ran
  rfl

theorem lift_inv {x : Option α} {s s' : σ} {a : α} (ran : (liftM x : StateT σ Option α) s = some (a,s')) :
    x = some a := by
  cases x with
  | none => cases ran
  | some b => cases ran; rfl

theorem foldlM_invariant (holds : β → Prop) {f : β → α → StateT σ Option β}
    (preserved : ∀ known item s next s', f known item s = some (next,s') → holds known → holds next)
    {items : List α} {known found : β} {s s' : σ} (ran : items.foldlM f known s = some (found,s'))
    (start : holds known) : holds found := by
  induction items generalizing known s with
  | nil => exact pure_inv ran ▸ start
  | cons item items ih =>
    rw [List.foldlM_cons] at ran
    obtain ⟨next,middle,first,rest⟩ := bind_inv ran
    exact ih rest (preserved known item s next middle first start)

/-- An entry is added only if its key is not there. -/
theorem extend?_inv {known found : List (Value × Value)} {entry : Value × Value}
    (added : extend? known entry = some found) :
    found = known ++ [entry] ∧ ∀ other ∈ known, other.1.same entry.1 = false := by
  rw [extend?] at added
  split at added
  next => cases added
  next fresh =>
    cases added
    refine ⟨rfl,fun other member => ?_⟩
    rw [List.any_eq_true] at fresh
    exact Bool.eq_false_iff.mpr fun same => fresh ⟨other,member,same⟩

theorem distinct_tagValue {name : Option String} {value : Value} (distinct : Distinct value) :
    Distinct (tagValue name value) := by
  cases name with
  | none => exact distinct
  | some tag => exact everywhere_tagged.mpr distinct

theorem isScalar_of_value? {text : List Char} {found : Value} (read : Plain.value? text = some found) :
    IsScalar found := by
  rw [Plain.value?] at read
  split at read
  · cases read
    exact .null
  · split at read
    next b _ =>
      cases read
      exact .bool b
    next =>
      obtain ⟨number | number,-,rfl⟩ := Option.map_eq_some_iff.mp read
      · exact .string _
      · exact .number number

theorem isScalar_of_ofKind? {kind : Plain.Kind} {text : List Char} {found : Value}
    (read : Plain.ofKind? kind text = some found) : IsScalar found := by
  cases kind with
  | bool =>
    obtain ⟨b,-,rfl⟩ := Option.map_eq_some_iff.mp read
    exact .bool b
  | int =>
    obtain ⟨n,-,fits⟩ := Option.bind_eq_some_iff.mp read
    split at fits
    · cases fits
      exact .number _
    · cases fits
  | float =>
    obtain ⟨x,-,rfl⟩ := Option.map_eq_some_iff.mp read
    exact .number _
  | null =>
    rw [Plain.ofKind?] at read
    split at read
    · cases read
      exact .null
    · cases read

theorem isScalar_of_scalarValue? {inside plain : Bool} {tag : Option (List Char)} {text : List Char} {found : Value}
    (read : scalarValue? inside tag plain text = some found) : IsScalar found := by
  rw [scalarValue?] at read
  split at read
  · split at read
    · exact isScalar_of_value? read
    · cases read
      exact .string _
  · split at read
    · exact isScalar_of_ofKind? read
    · cases read
      exact .string _

/-- An entry with a new key and a value without repeated keys keeps a mapping without them. -/
theorem distinct_extend {known found : List (Value × Value)} {key content : Value} (distinct : Distinct (.mapping known))
    (inner : Distinct content) (added : extend? known (key,content) = some found) : Distinct (.mapping found) := by
  obtain ⟨rfl,fresh⟩ := extend?_inv added
  obtain ⟨own,below⟩ := everywhere_mapping.mp distinct
  refine everywhere_mapping.mpr ⟨?_,?_⟩
  · refine List.pairwise_append.mpr ⟨own,List.pairwise_singleton _ _,?_⟩
    intro other member entry last
    rw [List.mem_singleton.mp last]
    exact fresh other member
  · intro entry member
    rcases List.mem_append.mp member with member | last
    · exact below entry member
    · rw [List.mem_singleton.mp last]
      exact inner

theorem distinct_scalar {properties : Properties} {inside plain : Bool} {text : List Char} {s s' : Nat} {found : Value}
    {places : List Anchored} {depth : Nat}
    (read : value places depth inside (.scalar properties plain text) s = some (found,s')) : Distinct found := by
  rw [value] at read
  obtain ⟨scalar,parsed,rfl⟩ := Option.map_eq_some_iff.mp (lift_inv read)
  exact distinct_tagValue (isScalar_of_scalarValue? parsed).everywhere

/-- Reading a node yields no key twice, at any depth. -/
theorem distinct_value {places : List Anchored} {depth : Nat} {inside : Bool} {node : Node Nat} {s s' : Nat}
    {found : Value} (read : value places depth inside node s = some (found,s')) : Distinct found := by
  induction depth generalizing inside node s s' found with
  | zero =>
    cases node with
    | «alias» number => cases read
    | scalar properties plain text => exact distinct_scalar read
    | sequence properties items => cases read
    | mapping properties entries => cases read
  | succ depth ih =>
    cases node with
    | «alias» number => cases read
    | scalar properties plain text => exact distinct_scalar read
    | sequence properties items =>
      rw [value] at read
      obtain ⟨items,middle,-,last⟩ := bind_inv read
      rw [← pure_inv last]
      -- Nothing is reached through a list.
      refine distinct_tagValue fun entries reached => ?_
      cases reached
    | mapping properties entries =>
      rw [value] at read
      obtain ⟨entries,middle,folded,last⟩ := bind_inv read
      rw [← pure_inv last]
      refine distinct_tagValue ?_
      -- The entries read so far are a mapping without repeated keys, whatever the keys are.
      refine foldlM_invariant (fun known => Distinct (.mapping known)) ?_ folded ?_
      · rintro known ⟨key,content⟩ s next s' ran distinct
        obtain ⟨k,s₁,-,ran⟩ := bind_inv ran
        obtain ⟨k',s₂,-,ran⟩ := bind_inv ran
        obtain ⟨v,s₃,-,ran⟩ := bind_inv ran
        obtain ⟨v',s₄,inner,ran⟩ := bind_inv ran
        exact distinct_extend distinct (ih inner) (lift_inv ran)
      · exact everywhere_mapping.mpr ⟨.nil,nofun⟩

end Node

/-- Whatever is read from a text has no key twice. -/
theorem distinct_of_ofText? {text : String} {found : Value} (read : Value.ofText? text = some found) :
    Distinct found := by
  obtain ⟨tokens,-,read⟩ := Option.bind_eq_some_iff.mp read
  obtain ⟨node,-,read⟩ := Option.bind_eq_some_iff.mp read
  cases node with
  | none =>
    cases read
    exact IsScalar.null.everywhere
  | some node =>
    obtain ⟨⟨linked,anchors⟩,-,read⟩ := Option.bind_eq_some_iff.mp read
    obtain ⟨⟨root,jumps⟩,ran,same⟩ := Option.bind_eq_some_iff.mp read
    cases same
    exact Node.distinct_value ran

end Phrasebook.Yaml
