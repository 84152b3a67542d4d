import Phrasebook.Options
import Phrasebook.Sorted

/-! A project's own configuration: the options that an editor would pass, and how much to log. -/
namespace Phrasebook.Project

structure Plugin where
  moduleName : Option String := none
  locales : Option Path := none
  output : Option Path := none
  lazy : Bool := false
  defaultLocale : Option String := none
deriving DecidableEq, Inhabited, Repr

structure Logging where
  default : String := "warn"
  /-- levels of single modules, in the order of their names -/
  modules : List (String × String) := []
deriving DecidableEq, Inhabited, Repr

/-- The options of a project whose relative paths start at `base`. -/
def Plugin.options (plugin : Plugin) (base : Path) : Options where
  moduleName := plugin.moduleName
  localesDirectory := plugin.locales.map base.join
  outputPath := plugin.output.map base.join
  lazy := if plugin.lazy then some true else none
  defaultLocale := plugin.defaultLocale

namespace Logging

/-- Each request for more detail raises the default level by one step. -/
def level (logging : Logging) : Nat → String
  | 0 => logging.default
  | 1 => "info"
  | 2 => "debug"
  | _ => "trace"

/-- The default level, then the levels of single modules. -/
def filter (logging : Logging) (detail : Nat) : String :=
  logging.level detail ++ String.join (logging.modules.map fun (name,level) => "," ++ name ++ "=" ++ level)

end Logging
end Phrasebook.Project

namespace Phrasebook

structure Project where
  plugin : Project.Plugin := {}
  logging : Project.Logging := {}
deriving DecidableEq, Inhabited, Repr

end Phrasebook
