import Phrasebook.Json.Reader
import Phrasebook.Keyed
import Phrasebook.Path
import Phrasebook.Text.Pieces

/-! What a `package.json` says about where the modules of its package are. -/
namespace Phrasebook.Package

/-- A manifest that contradicts itself or a module that is not exported ends the search. -/
inductive Fault where
  | illFormed
  | notExported
deriving DecidableEq, Repr

def field? (key : String) : Json → Option Json
  | .object fields => (Keyed.get? key fields).filter fun value => !(value matches .null)
  | _ => none

def string? (key : String) (manifest : Json) : Option String :=
  match field? key manifest with
  | some (.string text) => some text
  | _ => none

/-- Who asks for a module decides which of several variants it gets. -/
def conditions : List String := ["types","import","node","default"]

def drop? (start text : String) : Option String :=
  if start.toList.isPrefixOf text.toList then some (String.ofList (text.toList.drop start.toList.length)) else none

/-- The name of a package, with its scope, and what follows it. -/
def splitSpecifier (specifier : String) : String × String :=
  match Text.cutAt '/' specifier.toList with
  | none => (specifier,"")
  | some (first,rest) =>
    if specifier.toList.head? = some '@' then
      match Text.cutAt '/' rest with
      | none => (specifier,"")
      | some (second,rest) => (String.ofList (first ++ '/' :: second),String.ofList ('/' :: rest))
    else (String.ofList first,String.ofList ('/' :: rest))

/-- What follows the package's own name in a specifier. -/
def afterName? (name specifier : String) : Option String :=
  (drop? name specifier).filter fun tail => tail.isEmpty || tail.toList.head? = some '/'

/-- Puts a text in the place of every star. -/
def fillStars (text : List Char) : List Char → List Char
  | [] => []
  | c :: rest => if c = '*' then text ++ fillStars text rest else c :: fillStars text rest

/-- A target must stay inside the package and outside other packages. -/
def staysInside (target : Path) : Bool :=
  match target.components with
  | [] => true
  | first :: rest =>
    !rest.contains .here && !(first :: rest).contains .up &&
    !(first :: rest).any fun
      | .name octets => (Text.display octets).map Char.toLower = "node_modules"
      | _ => false

/-- A pattern's target with what the pattern matched put in. -/
def instantiate (key target : String) : Option String → Except Fault String
  | none => .ok target
  | some part =>
    if key.toList.contains '*' || target.toList.contains '*' then
      .ok (String.ofList (fillStars part.toList target.toList))
    else if key.toList.getLast? = some '/' && target.toList.getLast? = some '/' then .ok (target ++ part)
    else .error .illFormed

mutual

/-- The path inside the package that a target names, or nothing if no condition holds. -/
def target? (key : String) (part : Option String) : Json → Except Fault (Option Path)
  | .string target =>
    if (drop? "./" target).isNone then .error .illFormed
    else do
      let path : Path := ⟨← instantiate key target part⟩
      if staysInside path then .ok (some path) else .error .illFormed
  | .object variants => variant? key part variants
  | .array [] => .error .notExported
  | .array (first :: rest) => .ok (alternative? key part (first :: rest))
  | _ => .ok none

def variant? (key : String) (part : Option String) : List (String × Json) → Except Fault (Option Path)
  | [] => .ok none
  | (condition,value) :: rest =>
    if conditions.contains condition then do
      match ← target? key part value with
      | some path => .ok (some path)
      | none => variant? key part rest
    else variant? key part rest

/-- The first alternative that leads anywhere. -/
def alternative? (key : String) (part : Option String) : List Json → Option Path
  | [] => none
  | first :: rest =>
    match target? key part first with
    | .ok (some path) => some path
    | _ => alternative? key part rest

end

/-- The part of a subpath that a pattern leaves open. -/
def openPart? (pattern subpath : String) : Option String :=
  if (drop? "./" pattern).isNone then none
  else
    match Text.cutAt '*' pattern.toList with
    | some (before,after) =>
      let chars := subpath.toList
      if before.isPrefixOf chars && !after.contains '*' &&
          (after.isEmpty || (pattern.utf8ByteSize ≤ subpath.utf8ByteSize && after.isSuffixOf chars)) then
        some (String.ofList ((chars.drop before.length).take (chars.length - before.length - after.length)))
      else none
    | none => if pattern.toList.getLast? = some '/' then drop? pattern subpath else none

/-- How much of a pattern is fixed: up to its star, or all of it. -/
def fixedLength (pattern : String) : Nat :=
  ((Text.cutAt '*' pattern.toList).map fun (before,_) => before.length + 1).getD pattern.utf8ByteSize

/-- Whether a pattern is more specific than another. -/
def moreSpecific (pattern other : String) : Bool :=
  if fixedLength other < fixedLength pattern then true
  else if fixedLength pattern < fixedLength other then false
  else if !other.toList.contains '*' then true
  else if !pattern.toList.contains '*' then false
  else other.utf8ByteSize < pattern.utf8ByteSize

/-- The most specific pattern that matches a subpath, its open part and its target. -/
def bestPattern? (subpath : String) (exports : List (String × Json)) : Option (String × String × Json) :=
  exports.foldl (fun best (pattern,target) =>
    match openPart? pattern subpath with
    | none => best
    | some part =>
      match best with
      | some (other,_,_) => if moreSpecific pattern other then some (pattern,part,target) else best
      | none => some (pattern,part,target)) none

/-- Looks a subpath up among the exported ones. -/
def exportedIn (subpath : String) (exports : List (String × Json)) : Except Fault (Option Path) :=
  if subpath.toList.getLast? = some '/' then .ok none
  else
    match (if subpath.toList.contains '*' then none else Keyed.get? subpath exports) with
    | some target => target? subpath none target
    | none =>
      match bestPattern? subpath exports with
      | some (pattern,part,target) => target? pattern (some part) target
      | none => .ok none

def isSubpath (key : String) : Bool := key.toList.head? = some '.' || key.toList.head? = some '#'

/-- What the package exports under its bare name. -/
def mainExport? : Json → Option Json
  | .object fields =>
    match Keyed.get? "." fields with
    | some target => some target
    | none => if fields.any fun (key,_) => isSubpath key then none else some (.object fields)
  | .string text => some (.string text)
  | .array items => some (.array items)
  | _ => none

/-- The path inside the package of an exported subpath, which starts with a dot. -/
def exported (subpath : String) (exports : Json) : Except Fault Path := do
  let fields := match exports with
    | .object fields => fields
    | _ => []
  if fields.any (fun (key,_) => isSubpath key) && fields.any (fun (key,_) => !isSubpath key) then
    .error .illFormed
  else
    let main ← if subpath = "." then
        match mainExport? exports with
        | some target => target? "." none target
        | none => .ok none
      else .ok none
    match main with
    | some path => .ok path
    | none =>
      match ← exportedIn subpath fields with
      | some path => .ok path
      | none => .error .notExported

end Phrasebook.Package
