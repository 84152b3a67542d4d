import Phrasebook.Logging.Journal

/-! What a run prints: results and events, log lines, and the complaint that it ends with. -/
namespace Phrasebook.CommandLine

/-- A text for one of the two streams, printed as it is. -/
inductive Output where
  | out (text : String)
  | err (text : String)
deriving DecidableEq, Repr

namespace Output

def outText : Output → String
  | out text => text
  | err _ => ""

def errText : Output → String
  | out _ => ""
  | err text => text

def outLine (text : String) : Output := out (text ++ "\n")

def errLine (text : String) : Output := err (text ++ "\n")

end Output

/-- The time of day as it stands before log lines and before events. -/
structure Clock where
  log : String
  event : String
deriving DecidableEq, Repr

structure Console where
  json : Bool
  clock : Clock
  filter : Logging.Filter
  /-- as it was before the run changed anything -/
  resolver : Resolver

namespace Console

/-- Events for people go where the log goes, events for programs where results go. -/
def event (console : Console) (command : String) (event : Event) : Output :=
  if console.json then .outLine (event.render command).text
  else .errLine ("[" ++ console.clock.event ++ "] " ++ event.describe)

def record? (console : Console) (record : Logging.Record) : Option Output :=
  if console.filter.shows record.level record.target then
    some (.errLine (record.line console.clock.log))
  else none

def entry (console : Console) (command : String) (disk : Disk) : Entry → List Output
  | .emitted _ event => [console.event command event]
  | other => (Logging.ofEntry console.resolver disk other).filterMap console.record?

/-- Everything in the trace of a world. -/
def trace (console : Console) (command : String) (w : World DiskHost) : List Output :=
  w.trace.flatMap (console.entry command (w.host 0).disk)

end Console

/-- Why a run fails, and what lies behind that, outermost first. -/
structure Complaint where
  message : String
  causes : List String := []
  /-- a diagnosis that is not spelled out leaves its line open -/
  isOpen : Bool := false
deriving DecidableEq, Repr

namespace Complaint

/-- Puts a text behind a label, with its later lines below its first. -/
def hang (label margin text : String) : String :=
  label ++ String.intercalate ("\n" ++ margin) (Text.split '\n' text)

def numbered : Nat → List String → String
  | _,[] => ""
  | n,cause :: rest =>
    "\n" ++ hang ("    " ++ toString n ++ ": ") "       " cause ++ numbered (n + 1) rest

/-- Several causes are numbered. -/
def background : List String → String
  | [] => ""
  | [cause] => "\n\nCaused by:\n" ++ hang "    " "    " cause
  | causes => "\n\nCaused by:" ++ numbered 0 causes

def text (complaint : Complaint) : String :=
  "Error: " ++ complaint.message ++ background complaint.causes ++
    if complaint.isOpen then "" else "\n"

end Complaint
end Phrasebook.CommandLine
