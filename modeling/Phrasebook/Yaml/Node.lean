import Phrasebook.Yaml.Token.Stream

/-! The node that a token stream spells, with its anchors and aliases still in place. -/
namespace Phrasebook.Yaml

structure Properties where
  anchor : Option (List Char) := none
  tag : Option (List Char) := none
deriving DecidableEq, Repr

/-- `α` is how an alias names its target. -/
inductive Node (α : Type) where
  | alias (target : α)
  | scalar (properties : Properties) (plain : Bool) (text : List Char)
  | sequence (properties : Properties) (items : List (Node α))
  | mapping (properties : Properties) (entries : List (Node α × Node α))

namespace Node

abbrev Named := Node (List Char)

/-- A place where nothing is written. -/
def absent : Named := .scalar {} true []

/-- Tag handles and what they stand for. -/
abbrev Handles := List (List Char × List Char)

def standardHandles : Handles := [(['!'],['!']),(['!','!'],"tag:yaml.org,2002:".toList)]

def resolveTag? (handles : Handles) (handle suffix : List Char) : Option (List Char) :=
  if handle.isEmpty then some suffix
  else (handles.find? (·.1 = handle)).map (·.2 ++ suffix)

/-- An anchor and a tag, in either order and each at most once. -/
def properties (handles : Handles) : List Token → Option (Properties × List Token)
  | .anchor name :: .tag handle suffix :: rest =>
    (resolveTag? handles handle suffix).map fun tag => (⟨some name,some tag⟩,rest)
  | .tag handle suffix :: .anchor name :: rest =>
    (resolveTag? handles handle suffix).map fun tag => (⟨some name,some tag⟩,rest)
  | .tag handle suffix :: rest =>
    (resolveTag? handles handle suffix).map fun tag => (⟨none,some tag⟩,rest)
  | .anchor name :: rest => some (⟨some name,none⟩,rest)
  | rest => some ({},rest)

/-- A lone `!` on a written scalar is no tag. -/
def Properties.ofScalar (properties : Properties) : Properties :=
  if properties.tag = some ['!'] then {properties with tag := none} else properties

def startsWith (classes : List Token) (tokens : List Token) : Bool :=
  tokens.head?.any classes.contains

mutual

/-- One node. `block` admits block collections, `indentless` a sequence whose entries are
not indented against the key before it. -/
def read (handles : Handles) (block indentless : Bool) : Nat → List Token → Option (Named × List Token)
  | 0,_ => none
  | _,.alias name :: rest => some (.alias name,rest)
  | fuel + 1,tokens => do
    let (properties,rest) ← properties handles tokens
    match rest with
    | .scalar plain text :: rest => some (.scalar (Properties.ofScalar properties) plain text,rest)
    | .flowSequence :: rest => do
      let (items,rest) ← flowItems handles fuel true rest
      some (.sequence properties items,rest)
    | .flowMapping :: rest => do
      let (entries,rest) ← flowPairs handles fuel true rest
      some (.mapping properties entries,rest)
    | .blockSequence :: rest =>
      if block then do
        let (items,rest) ← blockItems handles fuel rest
        some (.sequence properties items,rest)
      else unwritten properties (.blockSequence :: rest)
    | .blockMapping :: rest =>
      if block then do
        let (entries,rest) ← blockPairs handles fuel rest
        some (.mapping properties entries,rest)
      else unwritten properties (.blockMapping :: rest)
    | .blockEntry :: rest =>
      if indentless then do
        let (items,rest) ← indentlessItems handles fuel (.blockEntry :: rest)
        some (.sequence properties items,rest)
      else unwritten properties (.blockEntry :: rest)
    | rest => unwritten properties rest

/-- Properties may stand for a node of no text. -/
def unwritten (properties : Properties) (rest : List Token) : Option (Named × List Token) :=
  if properties.anchor.isSome || properties.tag.isSome then some (.scalar properties true [],rest) else none

/-- A node, or nothing before one of the tokens in `ends`. -/
def readUnless (handles : Handles) (block indentless : Bool) (ends : List Token) :
    Nat → List Token → Option (Named × List Token)
  | 0,_ => none
  | fuel + 1,tokens =>
    if startsWith ends tokens then some (absent,tokens) else read handles block indentless fuel tokens

def blockItems (handles : Handles) : Nat → List Token → Option (List Named × List Token)
  | 0,_ => none
  | fuel + 1,.blockEntry :: rest => do
    let (item,rest) ← readUnless handles true false [.blockEntry,.blockEnd] fuel rest
    let (items,rest) ← blockItems handles fuel rest
    some (item :: items,rest)
  | _,.blockEnd :: rest => some ([],rest)
  | _,_ => none

def indentlessItems (handles : Handles) : Nat → List Token → Option (List Named × List Token)
  | 0,_ => none
  | fuel + 1,.blockEntry :: rest => do
    let (item,rest) ← readUnless handles true false [.blockEntry,.key,.value,.blockEnd] fuel rest
    let (items,rest) ← indentlessItems handles fuel rest
    some (item :: items,rest)
  | _,rest => some ([],rest)

def blockPairs (handles : Handles) : Nat → List Token → Option (List (Named × Named) × List Token)
  | 0,_ => none
  | fuel + 1,.key :: rest => do
    let ends := [.key,.value,.blockEnd]
    let (key,rest) ← readUnless handles true true ends fuel rest
    let (value,rest) ← match rest with
      | .value :: rest => readUnless handles true true ends fuel rest
      | rest => some (absent,rest)
    let (entries,rest) ← blockPairs handles fuel rest
    some ((key,value) :: entries,rest)
  | _,.blockEnd :: rest => some ([],rest)
  | _,_ => none

/-- The rest of a flow sequence. A key inside it makes a mapping of one entry; where that
key is not written, the token in its place is passed over. -/
def flowItems (handles : Handles) : Nat → Bool → List Token → Option (List Named × List Token)
  | 0,_,_ => none
  | _,_,.flowSequenceEnd :: rest => some ([],rest)
  | fuel + 1,first,tokens => do
    let tokens ← separated first tokens
    let ends := [.flowEntry,.flowSequenceEnd]
    match tokens with
    | .flowSequenceEnd :: rest => some ([],rest)
    | .key :: rest => do
      let (key,rest) ←
        if startsWith (.value :: ends) rest then some (absent,rest.tail)
        else read handles false false fuel rest
      let (value,rest) ← match rest with
        | .value :: rest => readUnless handles false false ends fuel rest
        | rest => some (absent,rest)
      let (items,rest) ← flowItems handles fuel false rest
      some (.mapping {} [(key,value)] :: items,rest)
    | tokens => do
      let (item,rest) ← read handles false false fuel tokens
      let (items,rest) ← flowItems handles fuel false rest
      some (item :: items,rest)

def flowPairs (handles : Handles) :
    Nat → Bool → List Token → Option (List (Named × Named) × List Token)
  | 0,_,_ => none
  | _,_,.flowMappingEnd :: rest => some ([],rest)
  | fuel + 1,first,tokens => do
    let tokens ← separated first tokens
    let ends := [.flowEntry,.flowMappingEnd]
    match tokens with
    | .flowMappingEnd :: rest => some ([],rest)
    | .key :: rest => do
      let (key,rest) ← readUnless handles false false (.value :: ends) fuel rest
      let (value,rest) ← match rest with
        | .value :: rest => readUnless handles false false ends fuel rest
        | rest => some (absent,rest)
      let (entries,rest) ← flowPairs handles fuel false rest
      some ((key,value) :: entries,rest)
    | tokens => do
      let (key,rest) ← read handles false false fuel tokens
      let (entries,rest) ← flowPairs handles fuel false rest
      some ((key,absent) :: entries,rest)

/-- Entries after the first are separated by a comma. -/
def separated (first : Bool) : List Token → Option (List Token)
  | .flowEntry :: rest => if first then some (.flowEntry :: rest) else some rest
  | tokens => if first then some tokens else none

end

/-- Directives before a document: versions 1.1 and 1.2, at most one, and distinct handles. -/
def directives (versioned : Bool) (handles : Handles) : List Token → Option (Handles × List Token)
  | .version major minor :: rest =>
    if versioned || major ≠ 1 || (minor ≠ 1 && minor ≠ 2) then none else directives true handles rest
  | .tagDirective handle tagPrefix :: rest =>
    if handles.any (·.1 = handle) then none
    else directives versioned (handles ++ [(handle,tagPrefix)]) rest
  | .documentStart :: rest => some (handles ++ standardHandles,rest)
  | _ => none

def isDirective : Token → Bool
  | .version _ _ => true
  | .tagDirective _ _ => true
  | _ => false

/-- After a document only its end marks may follow. -/
def isFinished (tokens : List Token) : Bool := tokens.all (· = .documentEnd)

/-- The node of a stream of one document, absent where nothing follows `---`. -/
def document (fuel : Nat) (tokens : List Token) : Option (Named × List Token) :=
  if startsWith [.documentStart] tokens || tokens.head?.any isDirective then do
    let (handles,rest) ← directives false [] tokens
    if rest.isEmpty || startsWith [.documentStart,.documentEnd] rest || rest.head?.any isDirective then
      some (absent,rest)
    else read handles true false fuel rest
  else read standardHandles true false fuel tokens

/-- The single document of a token stream; the inner `none` is a stream without one. -/
def ofTokens? (tokens : List Token) : Option (Option Named) :=
  if tokens.isEmpty then some none
  else do
    let (node,rest) ← document (2 * tokens.length + 4) tokens
    if isFinished rest then some (some node) else none

end Node
end Phrasebook.Yaml
