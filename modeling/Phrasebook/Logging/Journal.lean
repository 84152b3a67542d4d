import Phrasebook.Disk.Host
import Phrasebook.Logging.Record
import Phrasebook.Resolution.Search
import Phrasebook.Session.World

/-! What a log says about the entries of a trace. -/
namespace Phrasebook.Logging

def programTarget : String := "localetypes"

def partTarget (part : List String) : String := String.intercalate "::" (programTarget :: part)

def detail (part : List String) (message : String) (fields : List (String × String)) : Record :=
  ⟨.debug,partTarget part,message,fields⟩

/-- One record for every name that the resolver gave no answer. -/
def unresolved (resolver : Resolver) (query : Query) : List Record :=
  match resolver query with
  | .error _ => []
  | .ok answers =>
    (query.names.zip answers).filterMap fun (name,answer) =>
      if answer.isSome then none
      else some (detail ["infrastructure","resolver"] "unresolved import"
        [("specifier",Text.quoteVisible name),("error",Resolution.complaint name)])

def ofNote : Note → Record
  | .regenerated report => detail ["application","regenerate"] "regenerated"
      [("output",report.output.display),("locales",toString report.locales.length),
        ("hash",Text.quoteVisible report.digest.short)]
  | .fileChanged path => detail ["application","session"] "locale file changed" [("path",path.display)]
  | .directoryMissing name directory => detail ["application","interceptor"]
      "locales directory missing, keeping baseline resolution"
      [("module",Text.quoteVisible name),("dir",directory.display)]

def hostDetail (message : String) (path : Path) : Record :=
  detail ["infrastructure","host","local"] message [("path",path.display)]

/-- The records of an entry, made on a disk with the given resolver. -/
def ofEntry (resolver : Resolver) (disk : Disk) : Entry → List Record
  | .logged _ line => [⟨.info,programTarget,line,[]⟩]
  | .noted note => [ofNote note]
  | .asked query => unresolved resolver query
  | .opened path =>
    match DiskHost.watched path disk with
    | .ok target => [hostDetail "opened file watch" target]
    | .error _ => []
  | .closed path => [hostDetail "closed file watch" path]
  | _ => []

end Phrasebook.Logging
