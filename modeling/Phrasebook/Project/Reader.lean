import Phrasebook.Disk
import Phrasebook.Failure
import Phrasebook.Project.Basic
import Phrasebook.Project.Unknown
import Phrasebook.Toml.Document

/-! A project's configuration: what its TOML says, and where on a disk it is. A section may also be an array that
lists its values by position. -/
namespace Phrasebook.Project

open Toml (Value)

def fileName : Path := ⟨"localetypes.toml"⟩

def Plugin.keys : List String := ["module_name","locales","output","lazy","default_locale"]

def Logging.keys : List String := ["default","modules"]

/-- Unknown keys change nothing. -/
def Plugin.set (plugin : Plugin) : String × Value → Option Plugin
  | ("module_name",value) => value.string?.map fun v => {plugin with moduleName := some v}
  | ("locales",value) => value.string?.map fun (v : String) => {plugin with locales := some ⟨v⟩}
  | ("output",value) => value.string?.map fun (v : String) => {plugin with output := some ⟨v⟩}
  | ("lazy",value) => value.bool?.map fun v => {plugin with lazy := v}
  | ("default_locale",value) => value.string?.map fun v => {plugin with defaultLocale := some v}
  | _ => some plugin

def modules? (value : Value) : Option (List (String × String)) := do
  (← value.fields?).foldlM (fun levels (name,level) =>
    level.string?.map fun level => Sorted.insert name level levels) []

def Logging.set (logging : Logging) : String × Value → Option Logging
  | ("default",value) => value.string?.map fun v => {logging with default := v}
  | ("modules",value) => (modules? value).map fun v => {logging with modules := v}
  | _ => some logging

def set (project : Project) : String × Value → Option Project
  | ("plugin",value) => do
    let plugin ← (← value.named? Plugin.keys).foldlM Plugin.set {}
    some {project with plugin := plugin}
  | ("logging",value) => do
    let logging ← (← value.named? Logging.keys).foldlM Logging.set {}
    some {project with logging := logging}
  | _ => some project

def unknownIn (known : List String) (value : Value) : List String :=
  ((value.fields?.getD []).map (·.1)).filter (!known.contains ·)

/-- The unknown keys of a document; what stands below them is not looked at. -/
def unknownKeys (fields : List (String × Value)) : List String :=
  fields.flatMap fun (key,value) =>
    if key = "plugin" then unknownIn Plugin.keys value
    else if key = "logging" then unknownIn Logging.keys value
    else [key]

/-- A configuration and its unknown keys, or nothing if it is ill-formed. -/
def parse? (text : String) (file : Path) : Option (Project × List Unknown) := do
  let fields ← Toml.parse? text
  let project ← fields.foldlM set {}
  some (project,(unknownKeys fields).map (Unknown.of text file))

/-- The diagnosis of an ill-formed configuration is not spelled out. -/
def illFormed (file : Path) : Failure := .badConfig file "<toml>"

/-- The configuration in a directory, or else the nearest one above it. -/
def locate? (disk : Disk) (start : Path) : Option Path :=
  (start.ancestors.map (·.join fileName)).find? disk.isFile

def load (disk : Disk) (file : Path) : Except Failure (Project × List Unknown) :=
  match disk.read file with
  | .error fault => .error (.io fault.message)
  | .ok text =>
    match parse? text file with
    | some loaded => .ok loaded
    | none => .error (illFormed file)

end Phrasebook.Project
