import Phrasebook.Yaml.Node
import Phrasebook.Yaml.Plain

/-! The value of a document. Anchors are numbered in the order of the text, each alias is
replaced by the node it names, and a mapping holds no key twice. -/
namespace Phrasebook.Yaml

/-- A place that an alias may name. Of two places of one number the later one counts. -/
structure Anchored where
  number : Nat
  order : Nat
  node : Node Nat

/-- The anchors met so far: the number of each name, and how many anchors there were. -/
structure Anchors where
  numbers : List (List Char × Nat) := []
  met : Nat := 0
  places : List Anchored := []

namespace Node

/-- A name that is anchored again gets the number that a new name would get. -/
def Anchors.enter (anchors : Anchors) (name : List Char) : Anchors :=
  let number := anchors.numbers.length
  {anchors with
    numbers := (name,number) :: anchors.numbers.filter (·.1 ≠ name),met := anchors.met + 1}

def enter (properties : Properties) (anchors : Anchors) : Anchors :=
  match properties.anchor with
  | some name => Anchors.enter anchors name
  | none => anchors

/-- Records the node that was entered when `before` anchors had been met. -/
def place (properties : Properties) (before : Anchors) (node : Node Nat) (anchors : Anchors) : Anchors :=
  match properties.anchor with
  | some _ =>
    {anchors with places := ⟨before.numbers.length,before.met,node⟩ :: anchors.places}
  | none => anchors

mutual

/-- Names aliases by number; an alias of a name that is not yet anchored is refused. -/
def link : Named → Anchors → Option (Node Nat × Anchors)
  | .alias name,anchors => (anchors.numbers.find? (·.1 = name)).map fun found => (.alias found.2,anchors)
  | .scalar properties plain text,anchors =>
    let node := Node.scalar properties plain text
    some (node,place properties anchors node (enter properties anchors))
  | .sequence properties items,before => do
    let (items,anchors) ← linkItems items (enter properties before)
    let node := Node.sequence properties items
    some (node,place properties before node anchors)
  | .mapping properties entries,before => do
    let (entries,anchors) ← linkEntries entries (enter properties before)
    let node := Node.mapping properties entries
    some (node,place properties before node anchors)

def linkItems : List Named → Anchors → Option (List (Node Nat) × Anchors)
  | [],anchors => some ([],anchors)
  | item :: rest,anchors => do
    let (item,anchors) ← link item anchors
    let (rest,anchors) ← linkItems rest anchors
    some (item :: rest,anchors)

def linkEntries : List (Named × Named) → Anchors → Option (List (Node Nat × Node Nat) × Anchors)
  | [],anchors => some ([],anchors)
  | (key,value) :: rest,anchors => do
    let (key,anchors) ← link key anchors
    let (value,anchors) ← link value anchors
    let (rest,anchors) ← linkEntries rest anchors
    some ((key,value) :: rest,anchors)

end

mutual

/-- Nodes, with collections counted at both ends. -/
def events : Named → Nat
  | .alias _ => 1
  | .scalar _ _ _ => 1
  | .sequence _ items => itemEvents items + 2
  | .mapping _ entries => entryEvents entries + 2

def itemEvents : List Named → Nat
  | [] => 0
  | item :: rest => events item + itemEvents rest

def entryEvents : List (Named × Named) → Nat
  | [] => 0
  | (key,value) :: rest => events key + events value + entryEvents rest

end

/-- The place with a number that was anchored last. -/
def target? (places : List Anchored) (number : Nat) : Option (Node Nat) :=
  let candidates := places.filter (·.number = number)
  (candidates.foldl (fun best place =>
    match best with
    | none => some place
    | some b => if b.order < place.order then some place else some b) (none : Option Anchored)).map (·.node)

/-- The name of a local tag: `!name` without its mark, or a lone `!`. -/
def localTag? (tag : Option (List Char)) : Option String :=
  match tag with
  | some ['!'] => some "!"
  | some ('!' :: name) => some (String.ofList name)
  | _ => none

/-- The value of a scalar. Inside a local tag no other tag counts. -/
def scalarValue? (inside : Bool) (tag : Option (List Char)) (plain : Bool) (text : List Char) :
    Option Value :=
  match (if inside then none else tag) with
  | none => if plain then Plain.value? text else some (.string (String.ofList text))
  | some tag =>
    match Plain.kind? tag with
    | some kind => Plain.ofKind? kind text
    | none => some (.string (String.ofList text))

def tagValue (name : Option String) (value : Value) : Value :=
  match name with
  | some tag => .tagged tag value
  | none => value

/-- Adds an entry behind the others, unless its key is there. -/
def extend? (entries : List (Value × Value)) (entry : Value × Value) : Option (List (Value × Value)) :=
  if entries.any fun other => other.1.same entry.1 then none else some (entries ++ [entry])

/-- The node behind an alias, for one jump. -/
def follow (places : List Anchored) (node : Node Nat) : StateT Nat Option (Node Nat) :=
  match node with
  | .alias number => do
    match ← get with
    | 0 => failure
    | jumps + 1 =>
      set jumps
      (target? places number : Option (Node Nat))
  | node => pure node

def isAlias : Node Nat → Bool
  | .alias _ => true
  | _ => false

/-- The value of a node with at most `depth` collections around each other. The state is the
number of aliases that may still be followed. `inside` says that the node stands as a key in
a mapping with a local tag, where its own local tag does not count. -/
def value (places : List Anchored) : Nat → Bool → Node Nat → StateT Nat Option Value
  | _,_,.alias _ => failure
  | _,inside,.scalar properties plain text =>
    let name := if inside then none else localTag? properties.tag
    let found : Option Value := scalarValue? (inside || name.isSome) properties.tag plain text
    (found.map (tagValue name) : Option Value)
  | 0,_,_ => failure
  | depth + 1,inside,.sequence properties items => do
    let name := if inside then none else localTag? properties.tag
    let values ← items.mapM fun item => do value places depth false (← follow places item)
    pure (tagValue name (.sequence values))
  | depth + 1,inside,.mapping properties entries => do
    let name := if inside then none else localTag? properties.tag
    let entries ← entries.foldlM (fun known (key,content) => do
      let k ← value places depth ((inside || name.isSome) && !isAlias key) (← follow places key)
      let v ← value places depth false (← follow places content)
      (extend? known (k,v) : Option (List (Value × Value)))) []
    pure (tagValue name (.mapping entries))

/-- Collections may be nested this deep. -/
def depthLimit : Nat := 128

def toValue? (node : Named) : Option Value := do
  let (linked,anchors) ← link node {}
  let (value,_) ← (value anchors.places depthLimit false linked).run (100 * events node)
  some value

end Node

/-- The value of a text of at most one document; no document is null. -/
def Value.ofText? (text : String) : Option Value := do
  let tokens ← Token.ofText? text
  match ← Node.ofTokens? tokens with
  | none => some .null
  | some node => node.toValue?

end Phrasebook.Yaml
