import Phrasebook.Json
import Phrasebook.Keyed
import Phrasebook.Path
import Phrasebook.Text.Visible

/-! Options as an editor hands them over: every field may be absent, long field names win
over the short ones of older configurations, and unknown fields do not count. -/
namespace Phrasebook

structure Options where
  moduleName : Option String := none
  localesDirectory : Option Path := none
  outputPath : Option Path := none
  lazy : Option Bool := none
  defaultLocale : Option String := none
deriving DecidableEq, Inhabited, Repr

namespace Options

inductive Fault where
  | wrongType (found expected : String)
  | duplicate (field : String)
  | surplus (length : Nat)
deriving DecidableEq, Repr

def Fault.message : Fault → String
  | wrongType found expected => "invalid type: " ++ found ++ ", expected " ++ expected
  | duplicate field => "duplicate field \x60" ++ field ++ "\x60"
  | surplus length => "invalid length " ++ toString length ++ ", expected fewer elements in array"

/-- What a value is, in words. -/
def describe : Json → String
  | .null => "null"
  | .bool value => "boolean \x60" ++ toString value ++ "\x60"
  | .integer value => "integer \x60" ++ toString value ++ "\x60"
  | .float value => "floating point \x60" ++ Decimal.text true value ++ "\x60"
  | .string text => "string " ++ Text.quoteVisible text
  | .array _ => "sequence"
  | .object _ => "map"

def string? : Json → Except Fault (Option String)
  | .null => .ok none
  | .string text => .ok (some text)
  | other => .error (.wrongType (describe other) "a string")

def path? : Json → Except Fault (Option Path)
  | .null => .ok none
  | .string text => .ok (some ⟨text⟩)
  | other => .error (.wrongType (describe other) "path string")

def bool? : Json → Except Fault (Option Bool)
  | .null => .ok none
  | .bool value => .ok (some value)
  | other => .error (.wrongType (describe other) "a boolean")

inductive Field where
  | moduleName
  | localesDirectory
  | outputPath
  | lazy
  | defaultLocale
deriving DecidableEq, Repr

namespace Field

def name : Field → String
  | moduleName => "moduleName"
  | localesDirectory => "localesDirectory"
  | outputPath => "outputPath"
  | lazy => "lazy"
  | defaultLocale => "defaultLocale"

def shortName? : Field → Option String
  | localesDirectory => some "locales"
  | outputPath => some "filePath"
  | defaultLocale => some "defaultLanguage"
  | _ => none

/-- All fields in the order in which a positional value lists them. -/
def all : List Field := [moduleName,localesDirectory,outputPath,lazy,defaultLocale]

def ofKey? (key : String) : Option Field :=
  all.find? fun field => field.name = key || field.shortName? = some key

end Field

def set (options : Options) (field : Field) (value : Json) : Except Fault Options :=
  match field with
  | .moduleName => (string? value).map fun v => {options with moduleName := v}
  | .localesDirectory => (path? value).map fun v => {options with localesDirectory := v}
  | .outputPath => (path? value).map fun v => {options with outputPath := v}
  | .lazy => (bool? value).map fun v => {options with lazy := v}
  | .defaultLocale => (string? value).map fun v => {options with defaultLocale := v}

/-- Reads fields in order and reports the first bad one. -/
def ofFields (read : List Field) (options : Options) : List (String × Json) → Except Fault Options
  | [] => .ok options
  | (key,value) :: rest =>
    match Field.ofKey? key with
    | none => ofFields read options rest
    | some field =>
      if read.contains field then .error (.duplicate field.name)
      else do ofFields (field :: read) (← options.set field value) rest

/-- Reads values by position; a missing tail is absent. -/
def ofItems (options : Options) : List Field → List Json → Except Fault Options
  | field :: fields,value :: values => do ofItems (← options.set field value) fields values
  | _,_ => .ok options

/-- Removes the short name of a field whose long name is there. -/
def dropShort (fields : List (String × Json)) (field : Field) : List (String × Json) :=
  match field.shortName? with
  | some short => if (Keyed.get? field.name fields).isSome then Keyed.swapRemove short fields else fields
  | none => fields

def ofJson : Json → Except Fault Options
  | .null => .ok {}
  | .object fields => ofFields [] {} (Field.all.foldl dropShort fields)
  | .array items => do
    let options ← ofItems {} Field.all items
    if Field.all.length < items.length then .error (.surplus items.length) else .ok options
  | other => .error (.wrongType (describe other) "struct PluginOptions")

/-- Present fields under their long names, if paths are texts. -/
def fields? (options : Options) : Option (List (String × Json)) := do
  let entry := fun (name : String) (value : Option Json) => (value.map fun v => (name,v)).toList
  let localesDirectory ← options.localesDirectory.mapM Path.text?
  let outputPath ← options.outputPath.mapM Path.text?
  some (
    entry "moduleName" (options.moduleName.map .string) ++
    entry "localesDirectory" (localesDirectory.map .string) ++
    entry "outputPath" (outputPath.map .string) ++
    entry "lazy" (options.lazy.map .bool) ++
    entry "defaultLocale" (options.defaultLocale.map .string))

/-- Options with a path that is no text are written as if there were none. -/
def toJson (options : Options) : Json := (options.fields?.map .object).getD .null

end Options
end Phrasebook
