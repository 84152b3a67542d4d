import Phrasebook.CommandLine.Output
import Phrasebook.Project.Reader

/-! The project that a run is about. -/
namespace Phrasebook.CommandLine

structure Located where
  file : Path
  project : Project
  unknown : List Project.Unknown
deriving Repr

namespace Located

/-- The project of the given configuration, or of the nearest one. -/
def find (disk : Disk) (config : Option Path) : Except Complaint Located :=
  match config.or (Project.locate? disk (Disk.pathOf disk.current)) with
  | none => .error {
      message := "no " ++ Project.fileName.display ++ " found in " ++ (Disk.pathOf disk.current).display ++
        " or its parents" }
  | some file =>
    match Project.load disk file with
    | .ok (project,unknown) => .ok ⟨file,project,unknown⟩
    | .error failure => .error {
        message := "failed to load " ++ file.display
        causes := failure.message :: failure.causes
        isOpen := failure matches .badConfig _ _ }

/-- Where the project's relative paths start. -/
def root (located : Located) : Path := located.file.directory

def options (located : Located) : Json := (located.project.plugin.options located.root).toJson

/-- The file that imports the module where no other is named. -/
def entryFile (located : Located) : Path := located.root.join ⟨"index.ts"⟩

def check (located : Located) (disk : Disk) : Except Rejection Config :=
  Config.check located.options (some ({disk := disk} : DiskHost))

end Located

/-- Programs are told the file by its text, so one that is no text cannot be told at all. -/
def warning? (json : Bool) (unknown : Project.Unknown) : Option Output :=
  if json then unknown.file.text?.map fun file =>
    .errLine (Json.object [
      ("event",.string "config_warning"),("key",.string unknown.key),("file",.string file),
      ("line",(unknown.line.map fun line => Json.integer line).getD .null),
      ("suggestion",(unknown.suggestion.map Json.string).getD .null)]).text
  else some (.errLine ("warning: " ++ unknown.message))

end Phrasebook.CommandLine
