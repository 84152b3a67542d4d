import Phrasebook.Path

/-! What a session needs of the editor that hosts it: directories, files and file watches. -/
namespace Phrasebook

/-- Who hears of a change to a watched file. -/
inductive Subscriber where
  | session (id : Nat)
  | recorder (id : Nat)
deriving DecidableEq, Inhabited, Repr

abbrev WatchId := Nat

inductive HostFault where
  | listing (path : Path) (cause : String)
  | watch (path : Path) (cause : String)
  | write (path : Path) (cause : String)
  | resolution (cause : String)
deriving DecidableEq, Repr

def HostFault.message : HostFault → String
  | listing path cause => "cannot list directory " ++ path.display ++ ": " ++ cause
  | watch path cause => "cannot watch " ++ path.display ++ ": " ++ cause
  | write path cause => "cannot write " ++ path.display ++ ": " ++ cause
  | resolution cause => "module resolution failed: " ++ cause

class Host (σ : Type) where
  /-- The locale files directly inside a directory, in path order. -/
  list : Path → σ → Except HostFault (List Path)
  directoryExists : Path → σ → Bool
  read? : Path → σ → Option String
  /-- Replaces whatever was there. -/
  write : Path → String → σ → Except HostFault σ
  watch : Path → Subscriber → σ → Except HostFault (WatchId × σ)
  /-- Closing a watch twice does nothing. -/
  close : WatchId → σ → σ

end Phrasebook
