import Phrasebook.Generation.Basic
import Phrasebook.Host
import Phrasebook.Locale.Tree
import Phrasebook.Options

/-! Options that a session may adopt. -/
namespace Phrasebook

structure Config where
  moduleName : String
  localesDirectory : Path
  outputPath : Path
  mode : Mode
deriving DecidableEq, Inhabited, Repr

/-- Exactly the module name is tracked. -/
def Config.tracks (config : Config) (specifier : String) : Bool := config.moduleName = specifier

/-- Why options are not adopted. -/
inductive Rejection where
  | noHost
  | malformed (cause : String)
  | missing (field : String)
  | missingDefaultLocale
  | noLocaleFiles (directory : Path)
  | unlistable (directory : Path) (cause : String)
deriving DecidableEq, Repr

namespace Rejection

def message : Rejection → String
  | noHost => "host cannot list directories"
  | malformed cause => "malformed options: " ++ cause
  | missing field => field ++ " is required"
  | missingDefaultLocale => "defaultLocale is required when lazy is true"
  | noLocaleFiles directory => "no ." ++ Locale.fileExtension ++ " files in " ++ directory.display
  | unlistable directory cause => "cannot list " ++ directory.display ++ ": " ++ cause

end Rejection

namespace Config

def require {α : Type} (value : Option α) (rejection : Rejection) : Except Rejection α :=
  match value with
  | some a => .ok a
  | none => .error rejection

def modeOf (options : Options) : Except Rejection Mode :=
  if options.lazy.getD false then do
    let locale ← require (options.defaultLocale.filter (!·.isEmpty)) .missingDefaultLocale
    .ok (.lazy locale)
  else .ok .normal

/-- Decides on options for a host; of several faults the first in this order is reported. -/
def check {σ : Type} [Host σ] (options : Json) (host : Option σ) : Except Rejection Config := do
  let host ← require host .noHost
  let options ← match Options.ofJson options with
    | .ok options => .ok options
    | .error fault => .error (.malformed fault.message)
  let moduleName ← require (options.moduleName.filter (!·.isEmpty)) (.missing "moduleName")
  let outputPath ← require (options.outputPath.filter (!·.isEmpty)) (.missing "outputPath")
  let localesDirectory ←
    require (options.localesDirectory.filter (!·.isEmpty)) (.missing "localesDirectory")
  let mode ← modeOf options
  match Host.list localesDirectory host with
  | .error fault => .error (.unlistable localesDirectory fault.message)
  | .ok [] => .error (.noLocaleFiles localesDirectory)
  | .ok (_ :: _) => .ok ⟨moduleName,localesDirectory,outputPath,mode⟩

def rejectionLine (rejection : Rejection) : String := "invalid options: " ++ rejection.message

/-- Whether options may be adopted, and the line to log if not. -/
def validate {σ : Type} [Host σ] (options : Json) (host : Option σ) : Bool × List String :=
  match check options host with
  | .ok _ => (true,[])
  | .error rejection => (false,[rejectionLine rejection])

end Config
end Phrasebook
