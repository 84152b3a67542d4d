import Phrasebook.Event
import Phrasebook.Digest
import Phrasebook.Failure
import Phrasebook.Json
import Phrasebook.Resolution

/-! What a host asks of sessions and of itself, and what it hears in reply. -/
namespace Phrasebook

/-- A successful regeneration. -/
structure Report where
  output : Path
  /-- in listing order -/
  locales : List String
  digest : Digest
deriving DecidableEq, Repr

/-- How many watches a refresh opened and closed. -/
structure Refreshed where
  opened : Nat
  closed : Nat
deriving DecidableEq, Inhabited, Repr

/-- Requests to a host in memory. -/
inductive HostCommand where
  | insert (path : Path) (content : String)
  | createDirectory (path : Path)
  | removeDirectory (path : Path)
  | removeFile (path : Path)
  | setReadOnly (path : Path)
  | refuseWatches (on : Bool)
  | limitWatches (limit : Option Nat)
  | refuseListing (on : Bool)
  | setUnreadable (path : Path) (on : Bool)
  | file (path : Path)
  | read (path : Path)
  | write (path : Path) (content : String)
  | writes
  | writeCount (path : Path)
  | directoryExists (path : Path)
  | list (path : Path)
deriving DecidableEq, Repr

inductive Command where
  | host (id : Nat) (command : HostCommand)
  /-- writes a file and notifies the watches on it -/
  | edit (host : Nat) (path : Path) (content : String)
  | notify (host : Nat) (path : Path)
  | load (host : Nat) (directory : Path)
  | render (host : Nat) (config : Config) (target : Target)
  | generate (host : Nat) (logger : Nat) (config : Config)
  | rewatch (recorder host : Nat) (files : List Path)
  | unwatch (recorder : Nat)
  | dropRecorder (recorder : Nat)
  | watched (recorder : Nat)
  | hookState (hook : Nat)
  | resolve (hook : Nat) (query : Query)
  | create (session : Nat) (host : Option Nat) (hook logger : Nat) (options : Json)
  | configure (session : Nat) (options : Json)
  | regenerate (session : Nat)
  | refresh (session : Nat)
  | dispose (session : Nat)
  | renewSink (session : Nat)
  | drop (session : Nat)

inductive Reply where
  | done
  | flag (value : Bool)
  | count (n : Nat)
  | text (content : Option String)
  | paths (paths : List Path)
  | hostFault (fault : HostFault)
  | runFault (fault : RunFault)
  | loaded (messageCounts : List (String × Nat))
  | rendered (locales : List String) (source : String)
  | report (report : Report)
  | refreshed (refreshed : Refreshed)
  | watching (paths : List Path)
  | hook (hasResolver : Bool) (wrapCount : Nat)
  | answers (answers : Answers)
  /-- the language service of a session, as it was handed in -/
  | service (session : Nat)
deriving DecidableEq, Repr

/-- What a collaborator does when it is called: it may issue commands one after the other and
look at the replies. -/
inductive Script where
  | done
  | issue (command : Command) (next : Reply → Script)

def Script.ofList : List Command → Script
  | [] => done
  | command :: rest => issue command fun _ => ofList rest

end Phrasebook
