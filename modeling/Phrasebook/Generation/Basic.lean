import Phrasebook.Shape

/-! What is generated from locales: for which target, in which mode, and what may go wrong. -/
namespace Phrasebook

inductive Target where
  /-- declarations only -/
  | types
  /-- a module that carries the translations -/
  | runtime
deriving DecidableEq, Inhabited, Repr

namespace Target

def label : Target → String
  | types => "type"
  | runtime => "runtime"

def extension : Target → String
  | types => "d.ts"
  | runtime => "ts"

/-- The exact label. -/
def ofLabel? (label : String) : Option Target :=
  if label = "type" then some types else if label = "runtime" then some runtime else none

/-- A target as a user writes it, in any case of ASCII letters; else the lower-case text. -/
def parse (text : String) : Except String Target :=
  let lower := text.map Char.toLower
  if lower = "type" || lower = "types" then .ok types
  else if lower = "runtime" then .ok runtime
  else .error lower

def unknownMessage (text : String) : String :=
  "unknown target '" ++ text ++ "' (expected 'type' or 'runtime')"

end Target

inductive Mode where
  | normal
  | lazy (defaultLocale : String)
deriving DecidableEq, Inhabited, Repr

namespace Mode

def isLazy : Mode → Bool
  | normal => false
  | lazy _ => true

def defaultLocale? : Mode → Option String
  | normal => none
  | lazy locale => some locale

def label : Mode → String
  | normal => "normal"
  | lazy locale => "lazy (default " ++ locale ++ ")"

end Mode

/-- In lazy mode the declarations come with the loader that serves them. -/
inductive Artifact where
  | single (source : String)
  | withLoader (types loader : String)
deriving DecidableEq, Inhabited, Repr

namespace Artifact

/-- The text that is written. -/
def primary : Artifact → String
  | single source => source
  | withLoader types _ => types

def loader? : Artifact → Option String
  | single _ => none
  | withLoader _ loader => some loader

end Artifact

namespace Generation

inductive Fault where
  | clash (clash : Shape.Clash)
  | noDefault (locale : String)
deriving DecidableEq, Repr

def Fault.message : Fault → String
  | clash c => "locale '" ++ c.locale ++ "': '" ++ c.path ++
      "' is a message in one locale and a group in another"
  | noDefault locale => "default locale '" ++ locale ++ "' has no locale file"

def header : String := "// Generated by localetypes. Do not edit."

end Generation
end Phrasebook
