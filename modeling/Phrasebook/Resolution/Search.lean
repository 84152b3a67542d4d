import Phrasebook.Disk
import Phrasebook.Resolution
import Phrasebook.Resolution.Package

/-! Looking for modules on a disk: next to the file that imports them, at an absolute path, or in
the `node_modules` directories from that file upwards. -/
namespace Phrasebook.Resolution

/-- What a search finds, unless a fault ends it. -/
abbrev Found := Except Package.Fault (Option Path)

/-- Tried in this order where a file is named without its extension. -/
def extensions : List String := [".ts",".tsx",".d.ts",".mts",".js",".jsx",".mjs",".json"]

/-- What may stand in for a script: its source comes first. -/
def scriptSources : List String := [".ts",".tsx",".js"]

/-- The first result of several searches. -/
def firstFound {α : Type} (search : α → Found) : List α → Found
  | [] => .ok none
  | a :: rest => do
    match ← search a with
    | some path => .ok (some path)
    | none => firstFound search rest

/-- One step along a path, which takes back the step before it for `..`. -/
def follow (base : Path) : Component → Path
  | .root => ⟨"/"⟩
  | .here => base
  | .up => base.parent?.getD base
  | .name octets => base.join ⟨octets⟩

/-- Follows a path from a directory; an absolute path stands for itself. -/
def within (base tail : Path) : Path :=
  if tail.isAbsolute then tail else tail.components.foldl follow base

/-- A path without detours. -/
def plain (path : Path) : Path := path.components.foldl follow ⟨""⟩

section Disk

variable (disk : Disk)

def fileAt (path : Path) : Found := .ok (if disk.isFile path then some path else none)

def withExtension (path : Path) : Found :=
  firstFound (fun extension => fileAt disk ⟨path.octets ++ Text.octets extension⟩) extensions

/-- A path without its extension. -/
def bare (path : Path) (extension : String) : Path :=
  ⟨path.octets.take (path.octets.length - (Text.octets extension).length - 1)⟩

/-- The source of a script, if the path names a script. -/
def sourceOf (path : Path) : Found :=
  if path.extension? = some (Text.octets "js") then
    firstFound (fun extension => fileAt disk ⟨(bare path "js").octets ++ Text.octets extension⟩) scriptSources
  else .ok none

def asFile (path : Path) : Found :=
  firstFound (fun search => search disk path) [sourceOf,fileAt,withExtension]

def indexOf (directory : Path) : Found :=
  firstFound (fun search => search disk (within directory ⟨"index"⟩)) [fileAt,withExtension]

/-- The manifest in a directory. -/
def manifest (directory : Path) : Except Package.Fault (Option Json) :=
  match disk.read (directory.join ⟨"package.json"⟩) with
  | .error _ => .ok none
  | .ok text =>
    match Json.parse? text with
    | some manifest => .ok (some manifest)
    | none => .error .illFormed

/-- What a manifest names, by a path from its own directory. -/
def mainOf (directory : Path) (manifest : Option Json) : Found :=
  match manifest.bind (Package.string? "main") with
  | none => .ok none
  | some main => firstFound (fun search => search disk (within directory ⟨"./" ++ main⟩)) [asFile,indexOf]

def asDirectory (path : Path) : Found := do
  match ← mainOf disk path (← manifest disk path) with
  | some found => .ok (some found)
  | none => indexOf disk path

/-- A specifier that ends in a slash can only mean a directory. -/
def asFileOrDirectory (path : Path) (specifier : String) : Found := do
  let file ← if specifier.toList.getLast? = some '/' then .ok none else asFile disk path
  match file with
  | some found => .ok (some found)
  | none => if disk.isDirectory path then asDirectory disk path else .ok none

/-- What a package exports under a subpath; nothing if it does not say what it exports. -/
def exportOf (directory : Path) (manifest : Option Json) (subpath : String) : Found :=
  match manifest.bind (Package.field? "exports") with
  | none => .ok none
  | some exports => do
    let path ← Package.exported ("." ++ subpath) exports
    match ← asFileOrDirectory disk (within directory path) "" with
    | some found => .ok (some found)
    | none => .error .notExported

/-- The nearest manifest from a directory upwards, and where it is. -/
def nearestManifest : List Path → Except Package.Fault (Option (Path × Json))
  | [] => .ok none
  | directory :: above => do
    match ← manifest disk directory with
    | some found => .ok (some (directory,found))
    | none => nearestManifest above

/-- The existing directories from a path upwards. -/
def directoriesFrom (path : Path) : List Path := path.ancestors.dropWhile (!disk.isDirectory ·)

/-- A package may import itself by its own name. -/
def inOwnPackage (directory : Path) (specifier : String) : Found := do
  match ← nearestManifest disk (directoriesFrom disk directory) with
  | none => .ok none
  | some (root,manifest) =>
    match (Package.string? "name" manifest).bind (Package.afterName? · specifier) with
    | some subpath => exportOf disk root (some manifest) subpath
    | none => .ok none

/-- Looks into the `node_modules` directory right below a directory. -/
def inModulesOf (specifier : String) (directory : Path) : Found :=
  let modules := directory.join ⟨"node_modules"⟩
  if !disk.isDirectory directory || !disk.isDirectory modules then .ok none
  else do
    let (name,subpath) := Package.splitSpecifier specifier
    let package := within modules ⟨name⟩
    if disk.isDirectory package then
      match ← exportOf disk package (← manifest disk package) subpath with
      | some found => .ok (some found)
      | none => asFileOrDirectory disk (within modules ⟨specifier⟩) specifier
    else if !subpath.isEmpty then .ok none
    else if name.toList.head? = some '@' && !(package.parent?.any disk.isDirectory) then .ok none
    else asFileOrDirectory disk (within modules ⟨specifier⟩) specifier

def unparsed (directory : Path) (specifier : String) : Found :=
  match (⟨specifier⟩ : Path).components.head? with
  | some .root => asFileOrDirectory disk ⟨specifier⟩ specifier
  | some .here => asFileOrDirectory disk (within directory ⟨specifier⟩) specifier
  | some .up => asFileOrDirectory disk (within directory ⟨specifier⟩) specifier
  | _ => do
    match ← inOwnPackage disk directory specifier with
    | some found => .ok (some found)
    | none => firstFound (inModulesOf disk specifier) directory.ancestors

/-- The path in a specifier, without a query, and its fragment unless a query comes first. -/
def splitFragment (specifier : String) : String × Option String :=
  let first := specifier.toList.take 1
  let (held,rest) := if first = ['/'] || first = ['.'] || first = ['#'] then (first,specifier.toList.drop 1)
    else ([],specifier.toList)
  let path := rest.takeWhile fun c => c ≠ '?' && c ≠ '#'
  let tail := rest.drop path.length
  (String.ofList (held ++ path),
    if tail.head? = some '#' then some (String.ofList tail) else none)

/-- Finds the file that a specifier means. A fragment is first taken as part of the path. -/
def resolveOne (directory : Path) (specifier : String) : Option Resolution := do
  let (path,fragment) := splitFragment specifier
  if path.isEmpty then none
  else
    let whole := fragment.bind fun fragment => ((unparsed disk directory (path ++ fragment)).toOption).join
    let found ← whole.or ((unparsed disk directory path).toOption).join
    match nearestManifest disk (directoriesFrom disk (plain found)) with
    | .error _ => none
    | .ok _ => some ⟨plain found,(plain found).components.contains (.name "node_modules")⟩

end Disk

/-- Resolves every name on its own, from the directory of the importing file. -/
def onDisk (disk : Disk) : Resolver := fun query =>
  .ok (query.names.map (resolveOne disk query.containingFile.directory))

/-- Why a name has no answer. A query or a fragment is not part of what was looked for. -/
def complaint (name : String) : String :=
  if name.isEmpty then "The specifiers must be a non-empty string. Received \"\""
  else "Cannot find module '" ++ (splitFragment name).1 ++ "'"

end Phrasebook.Resolution
