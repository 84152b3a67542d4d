import Phrasebook.Config

/-! Why a regeneration fails, and why a command does. -/
namespace Phrasebook

inductive RunFault where
  | listing (cause : HostFault)
  | unreadable (path : Path)
  | illFormed (path : Path) (cause : String)
  | generator (cause : String)
  | write (cause : HostFault)
deriving DecidableEq, Repr

namespace RunFault

def message : RunFault → String
  | listing cause => "cannot list locale files: " ++ cause.message
  | unreadable path => "cannot read locale file " ++ path.display
  | illFormed path cause => "invalid locale file " ++ path.display ++ ": " ++ cause
  | generator cause => "generation failed: " ++ cause
  | write cause => "cannot write output: " ++ cause.message

def cause? : RunFault → Option HostFault
  | listing cause => some cause
  | write cause => some cause
  | _ => none

end RunFault

inductive Failure where
  | io (cause : String)
  | host (fault : HostFault)
  | run (fault : RunFault)
  | badConfig (file : Path) (cause : String)
  | rejected (rejection : Rejection)
deriving DecidableEq, Repr

namespace Failure

def message : Failure → String
  | io cause => "IO error: " ++ cause
  | host fault => fault.message
  | run fault => fault.message
  | badConfig file cause => "invalid config in " ++ file.display ++ ": " ++ cause
  | rejected rejection => "plugin options rejected: " ++ rejection.message

/-- The texts of what lies behind a failure, outermost first. A failure that shows the text of
another as its own does not list it. -/
def causes : Failure → List String
  | io cause => [cause]
  | host _ => []
  | run fault => (fault.cause?.map HostFault.message).toList
  | badConfig _ _ => []
  | rejected rejection => [rejection.message]

end Failure
end Phrasebook
